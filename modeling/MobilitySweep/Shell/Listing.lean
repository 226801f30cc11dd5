import MobilitySweep.Shell.Permissions
import MobilitySweep.Shell.Sorting

/-! # Listings

What is in directories, one name a line: in an order, with marks that tell kinds apart, with what is known
about each file, and with the directories below.
-/

namespace MobilitySweep

namespace Shell

/-- What files are listed by. -/
inductive ListingOrder where
  | name
  | size
  | ending
  | version
  | none
deriving DecidableEq, Repr

/-- How files are listed: which of them are, what is shown of each, and in which order. -/
structure ListingStyle where
  showsHidden : Bool
  showsItself : Bool
  marksFolders : Bool
  marksKinds : Bool
  isLong : Bool
  showsSpace : Bool
  isQuoted : Bool
  isJoined : Bool
  follows : Bool
  order : ListingOrder
  isReversed : Bool
  hidden : List Bytes

/-- A file in a listing: its name there, and what it is. -/
structure Listed where
  name : Bytes
  entry : Entry
  bits : Nat
  links : Nat

namespace Listed

/-- The size that is shown. -/
def size (f : Listed) : Nat :=
  match f.entry with
  | .file content => content.toBytes.length
  | .link target => target.length
  | .directory => 4096

/-- The space that is taken, in units of 1024 bytes. -/
def space (f : Listed) : Nat :=
  match f.entry with
  | .file content => (content.toBytes.length + 4095) / 4096 * 4
  | .link _ => 0
  | .directory => 4

/-- The mark behind a name. -/
def mark (style : ListingStyle) (f : Listed) : Bytes :=
  match f.entry with
  | .directory => if style.marksFolders || style.marksKinds then [47] else []
  | .link _ => if style.marksKinds && !style.isLong then [64] else []
  | .file _ => if style.marksKinds && f.bits &&& 0o111 ≠ 0 then [42] else []

/-- What may be done with a file. -/
def permissions (f : Listed) : Bytes :=
  match f.entry with
  | .directory => 100 :: Permissions.text f.bits
  | .link _ => "lrwxrwxrwx"
  | .file _ => 45 :: Permissions.text f.bits

/-- A line of a listing; numbers are as wide as their columns. -/
def line (style : ListingStyle) (spaceWidth linkWidth sizeWidth : Nat) (f : Listed) : Bytes :=
  let quoted := if style.isQuoted then [34] ++ f.name ++ [34] else f.name
  let space := if style.showsSpace then filled false false spaceWidth (Decimal.ofNat f.space) ++ [32] else []
  let name := quoted ++ f.mark style
  if !style.isLong then space ++ name
  else
    let target : Bytes := match f.entry with
      | .link target => " -> " ++ target
      | _ => []
    let columns : List Bytes :=
      [f.permissions, filled false false linkWidth (Decimal.ofNat f.links), "root root",
        filled false false sizeWidth (Decimal.ofNat f.size), "Jan  1 00:00", name ++ target]
    space ++ Bytes.joinWith [32] columns

/-- The ending of a name from its last dot on. -/
def ending (f : Listed) : Bytes :=
  let behind := f.name.reverse.takeWhile (· ≠ 46)
  if behind.length = f.name.length then [] else 46 :: behind.reverse

end Listed

namespace ListingStyle

/-- Files in the order of a listing: by name, by the number in the name, by the ending, or the largest
first. -/
def ordered (style : ListingStyle) (files : List Listed) : List Listed :=
  let byName := files.mergeSort fun a b => !Bytes.less b.name a.name
  let sorted := match style.order with
    | .size => byName.mergeSort fun a b => b.size ≤ a.size
    | .ending => byName.mergeSort fun a b => !Bytes.less b.ending a.ending
    | .version => byName.mergeSort fun a b => Programs.compareVersions a.name b.name ≠ .gt
    | .name | .none => byName
  if style.isReversed then sorted.reverse else sorted

/-- The lines of files. -/
def lines (style : ListingStyle) (files : List Listed) : Bytes :=
  let widest (numbers : List Nat) : Nat := (numbers.map fun n => (Decimal.ofNat n).length).foldl max 0
  let shown := files.map
    (Listed.line style (widest (files.map Listed.space)) (widest (files.map Listed.links)) (widest (files.map Listed.size)))
  if style.isJoined && !style.isLong then
    if shown.isEmpty then [] else Bytes.joinWith ", " shown ++ [10]
  else shown.flatMap (· ++ [10])

end ListingStyle

namespace Programs

/-- What a listing shows of a path under a name. -/
def listed? (p : Job) (style : ListingStyle) (path name : Bytes) : Option Listed :=
  match if style.follows && p.files.exists? path then p.files.stat path else p.files.linkStat path with
  | .error _ => none
  | .ok entry =>
    let place? := match p.files.resolve true path with
      | .ok (.taken place _) => some place
      | _ => none
    some ⟨name, entry, (place?.map p.files.permissionsAt).getD 0o777, (place?.map p.files.nameCount).getD 1⟩

/-- What a directory holds. -/
def contentsOf (p : Job) (style : ListingStyle) (path : Bytes) : List Listed :=
  let isHidden (name : Bytes) : Bool := style.hidden.any fun pattern => isMatch (pattern.map (⟨·, false⟩)) name
  let names := (namesIn p.files path).filter fun name =>
    (name.head? ≠ some 46 || style.showsHidden) && !isHidden name
  let names := if style.showsItself then Path.here :: Path.above :: names else names
  style.ordered (names.filterMap fun name => listed? p style (path ++ [47] ++ name) name)

/-- A directory listed, perhaps with its title, and those below it, at most so deep. -/
def listings (p : Job) (style : ListingStyle) (isDeep hasTitle : Bool) : Nat → Bytes → List Bytes
  | 0, _ => []
  | depth + 1, path =>
    let files := contentsOf p style path
    let total : Bytes :=
      if style.isLong || style.showsSpace then ("total " : Bytes) ++ Decimal.ofNat ((files.map Listed.space).foldl (· + ·) 0) ++ [10] else []
    let own := (if hasTitle then path ++ [58, 10] else []) ++ total ++ style.lines files
    let folders := files.filter fun f => f.entry = .directory && f.name ≠ Path.here && f.name ≠ Path.above
    own :: (if isDeep then folders.flatMap fun f => listings p style isDeep hasTitle depth (path ++ [47] ++ f.name)
      else [])

/-- Paths and the names in directories: first what is no directory, then the directories, each under its
title if there are several paths. -/
def ls (args : List Bytes) : Act Nat :=
  let long := [("all", 'a'), ("almost-all", 'A'), ("recursive", 'R'), ("reverse", 'r'), ("directory", 'd'), ("size", 's'),
    ("quote-name", 'Q'), ("dereference", 'L'), ("human-readable", 'h'), ("classify", 'F'), ("ignore", 'I'),
    ("ignore-backups", 'B'), ("hide", '\x01'), ("color", '\x02'), ("sort", '\x03'), ("inode", 'i'), ("escape", 'b'),
    ("literal", 'N'), ("group-directories-first", '\x04'), ("full-time", 'l'), ("time-style", '\x05'),
    ("format", '\x06'), ("indicator-style", '\x07'), ("width", 'w'), ("no-group", 'G'), ("numeric-uid-gid", 'n')]
  let valued := "wITD\x01\x03\x05\x06\x07"
  Act.withOptions "ls" 2 ⟨"aAlhdrRtS1FnigopsuUXZcCmqQxGfLHbBkvN", valued, long, false⟩ args fun given => do
  let has := given.has
  let sort := (given.value? '\x03').getD []
  let order : ListingOrder :=
    if has 'S' || sort = "size" then .size
    else if has 'X' || sort = "extension" then .ending
    else if has 'v' || sort = "version" then .version
    else if has 'U' || sort = "none" then .none
    else .name
  let style : ListingStyle :=
    { showsHidden := has 'a' || has 'A'
      showsItself := has 'a'
      marksFolders := has 'p' || given.value? '\x07' = some "slash"
      marksKinds := has 'F' || given.value? '\x07' = some "classify"
      isLong := has 'l' || has 'n' || has 'g' || has 'o' || given.value? '\x06' = some "long"
      showsSpace := has 's'
      isQuoted := has 'Q'
      isJoined := has 'm' || given.value? '\x06' = some "commas"
      follows := has 'L'
      order := order
      isReversed := has 'r'
      hidden := given.values 'I' ++ (if has 'B' then [[42, 126]] else []) ++
        (if has 'a' || has 'A' then [] else given.values '\x01') }
  let paths := (if given.operands.isEmpty then [Path.here] else given.operands).mergeSort fun a b => !Bytes.less b a
  let p ← get
  let isDirectory (path : Bytes) : Bool := !has 'd' && match p.files.stat path with
    | .ok .directory => true
    | _ => false
  let (folders, others) := paths.partition isDirectory
  let status ← Act.forEach (fun path => do
    match p.files.linkStat path with
    | .ok _ => pure 0
    | .error cause =>
      Act.report ("ls: cannot access " ++ inQuotes path ++ ": " ++ reasonOf cause)
      pure 2) others
  let shown := style.ordered (others.filterMap fun path => listed? p style path path)
  Act.put (style.lines shown)
  let folders := if style.isReversed then folders.reverse else folders
  let blocks := folders.flatMap (listings p style (has 'R') (paths.length > 1 || has 'R') 1000)
  Act.put ((if shown.isEmpty || blocks.isEmpty then [] else [10]) ++ Bytes.joinWith [10] blocks)
  pure status

end Programs

end Shell

end MobilitySweep
