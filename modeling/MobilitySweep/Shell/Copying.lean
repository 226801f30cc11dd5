import MobilitySweep.Shell.Creating
import MobilitySweep.Shell.Permissions

/-! # Files copied, moved and linked

Sources are paired with the paths that they go to: a directory takes each under its own name. Then every
pair is copied, moved or linked as far as the kinds of the two allow.
-/

namespace MobilitySweep

namespace Shell

/-- A name below a directory. -/
def nameBelow (folder name : Bytes) : Bytes :=
  if Files.endsWithSlash folder then folder ++ name else folder ++ [47] ++ name

/-- The way from a place to another one, up and down. -/
def wayBetween : Place → Place → Bytes
  | a :: source, b :: target =>
    if a = b then wayBetween source target else Bytes.joinWith [47] ((a :: source).map (fun _ => Path.above) ++ b :: target)
  | [], [] => Path.here
  | source, target => Bytes.joinWith [47] (source.map (fun _ => Path.above) ++ target)

/-- Two paths that lead to the same file. -/
def isSame (files : Files) (follow : Bool) (a b : Bytes) : Bool :=
  match files.resolve follow a, files.resolve follow b with
  | .ok (.taken a _), .ok (.taken b _) => files.isOneFile a b
  | _, _ => false

/-- Two paths that lead to the same place, no link at their ends followed. -/
def isSamePlace (files : Files) (a b : Bytes) : Bool :=
  match files.resolve false a, files.resolve false b with
  | .ok (.taken a _), .ok (.taken b _) => a = b
  | _, _ => false

/-- A message, and whether help is pointed to. -/
abbrev Refusal := Bytes × Bool

/-- Where sources go. -/
structure Destination where
  files : Files
  isFolder : Bytes → Bool
  single : Bytes → Except Refusal Bytes

namespace Destination

/-- A source under its own name in a directory. -/
def inside (folder source : Bytes) : Bytes × Bytes :=
  (source, if lastName source = Path.above then folder else nameBelow folder (lastName source))

/-- Why a path is no directory. -/
def flaw (d : Destination) (path : Bytes) : Bytes :=
  match d.files.stat path with
  | .ok _ => reasonOf .notDirectory
  | .error cause => reasonOf cause

/-- The pairs of sources and targets that options and operands describe. -/
def pairs (d : Destination) (given : Given) : Except Refusal (List (Bytes × Bytes)) := do
  match given.value? 't', given.operands with
  | _, [] => .error ("missing file operand", true)
  | some folder, sources =>
    if given.has 'T' then .error ("cannot combine --target-directory (-t) and --no-target-directory (-T)", false)
    else if d.isFolder folder then pure (sources.map (inside folder))
    else .error ("target directory " ++ inQuotes folder ++ ": " ++ d.flaw folder, false)
  | none, [source] => pure [(source, ← d.single source)]
  | none, [source, target] =>
    pure [if !given.has 'T' && d.isFolder target then inside target source else (source, target)]
  | none, first :: second :: third :: rest =>
    let folder := (third :: rest).getLastD third
    if given.has 'T' then .error ("extra operand " ++ inQuotes third, true)
    else if d.isFolder folder then pure ((first :: second :: third :: rest).dropLast.map (inside folder))
    else .error ("target " ++ inQuotes folder ++ ": " ++ d.flaw folder, false)

end Destination

/-- What a program does with each pair of a source and its target. -/
def Act.forPairs (name : Bytes) (pairs : Except Refusal (List (Bytes × Bytes))) (activity : Bytes → Bytes → Act Nat) :
    Act Nat := do
  match pairs with
  | .error (message, hint) =>
    report (name ++ ": " ++ message)
    if hint then report (helpHint name)
    pure 1
  | .ok pairs => go pairs
where
  /-- The pairs in turn. -/
  go : List (Bytes × Bytes) → Act Nat
    | [] => pure 0
    | (source, target) :: rest => do
      let status ← activity source target
      let others ← go rest
      pure (if others = 0 then status else others)

namespace Programs

/-- Whether a path leads to a directory. -/
def isFolder (files : Files) (path : Bytes) : Bool :=
  match files.stat path with
  | .ok .directory => true
  | _ => false

/-- Sources and targets of a program that needs both. -/
def sourcesAndTargets (given : Given) : Act (Except Refusal (List (Bytes × Bytes))) := do
  let files := (← get).files
  let single (source : Bytes) : Except Refusal Bytes :=
    .error ("missing destination file operand after " ++ inQuotes source, true)
  pure (Destination.pairs ⟨files, isFolder files, single⟩ given)

/-- A file that is in the way kept under another name. -/
def keepBackup (given : Given) (target : Bytes) : Act Unit := do
  if given.has 'b' then
    modify fun p => match p.files.renameEntry target (target ++ [126]) with
      | .ok files => { p with files := files }
      | .error _ => p

/-- Whether something in the way stays there, because that was asked for or is the answer to a question. -/
def isSpared (name : Bytes) (given : Given) (target : Bytes) : Act Bool := do
  if !(← get).files.exists? target then pure false
  else if given.has 'n' then pure true
  else if given.has 'i' && !given.has 'f' then do
    pure !(← Act.agreed (name ++ ": overwrite " ++ inQuotes target ++ "? "))
  else pure false

/-- A refusal in the words of a program. -/
def refuseWith (name message : Bytes) : Act Nat := do
  Act.report (name ++ ": " ++ message)
  pure 1

/-- The tree with another name for what a path leads to. -/
def linked (files : Files) (place : Place) (entry : Entry) (source : Bytes) : Files :=
  match files.resolve false source with
  | .ok (.taken old (.file _)) => files.share old place
  | _ => files.put place entry

/-- One source copied to a target, at most so deep. -/
def copyPath (given : Given) : Nat → Bytes → Bytes → Act Nat
  | 0, _, _ => pure 1
  | depth + 1, source, target => do
    let files := (← get).files
    let isDeep := given.has 'r' || given.has 'R' || given.has 'a'
    let keepsLinks := (isDeep || given.has 'P' || given.has 'd') && !given.has 'L' && !given.has 'H'
    let refuse := refuseWith "cp"
    let tell : Act Unit := do
      if given.has 'v' then Act.put (inQuotes source ++ " -> " ++ inQuotes target ++ "\n")
    match if keepsLinks then files.linkStat source else files.stat source with
    | .error cause => refuse ("cannot stat " ++ inQuotes source ++ ": " ++ reasonOf cause)
    | .ok entry =>
      let isTree := entry = .directory
      if isTree && !isDeep then refuse ("-r not specified; omitting directory " ++ inQuotes source)
      else
        match files.stat target with
        | .error .notDirectory =>
          if Files.endsWithSlash target then
            refuse ("cannot create regular file " ++ inQuotes target ++ ": " ++ reasonOf .notDirectory)
          else refuse ("cannot stat " ++ inQuotes target ++ ": " ++ reasonOf .notDirectory)
        | found =>
          let isNew := match found with
            | .ok _ => false
            | .error _ => true
          let isOverFolder := match found with
            | .ok .directory => true
            | _ => false
          if isSame files (!keepsLinks) source target then
            refuse (inQuotes source ++ " and " ++ inQuotes target ++ " are the same file")
          else if ← isSpared "cp" given target then pure 0
          else if isTree && !isNew && !isOverFolder then
            refuse ("cannot overwrite non-directory " ++ inQuotes target ++ " with directory " ++ inQuotes source)
          else if !isTree && isOverFolder then
            refuse ("cannot overwrite directory " ++ inQuotes target ++ " with non-directory")
          else
            match entry with
            | .directory =>
              let enter : Act Nat := do
                let names := namesIn (← get).files source
                Act.forEach (fun name => copyPath given depth (nameBelow source name) (nameBelow target name)) names
              if !isNew then enter
              else
                match files.mkdir target with
                | .error cause => refuse ("cannot create directory " ++ inQuotes target ++ ": " ++ reasonOf cause)
                | .ok made =>
                  let _ ← Act.changed made none
                  match files.resolve true source, made.resolve true target with
                  | .ok (.taken old _), .ok (.taken new _) =>
                    if old.isPrefixOf new then
                      refuse ("cannot copy a directory, " ++ inQuotes source ++ ", into itself, " ++ inQuotes target)
                    else
                      tell
                      enter
                  | _, _ => pure 1
            | .link goal =>
              keepBackup given target
              let files := (← get).files.removeAll target
              tell
              match files.resolve false target with
              | .ok (.free place _) => Act.changed (files.put place (.link goal)) none
              | _ => refuse ("cannot create symbolic link " ++ inQuotes target ++ ": " ++ reasonOf .missing)
            | .file content =>
              keepBackup given target
              let files := (← get).files
              if given.has 's' then
                let files := if given.has 'f' then files.removeAll target else files
                match files.resolve false target with
                | .ok (.free place _) =>
                  tell
                  if !Path.isAbsolute source && (Path.names target).length > 1 then
                    refuse (inQuotes target ++ ": can make relative symbolic links only in current directory")
                  else Act.changed (files.put place (.link source)) none
                | .ok (.taken _ _) =>
                  refuse ("cannot create symbolic link " ++ inQuotes target ++ ": " ++ reasonOf .present)
                | .error cause => refuse ("cannot create symbolic link " ++ inQuotes target ++ ": " ++ reasonOf cause)
              else if given.has 'l' then
                let failed (cause : Files.Cause) : Act Nat :=
                  refuse ("cannot create hard link " ++ inQuotes target ++ " to " ++ inQuotes source ++ ": " ++ reasonOf cause)
                let files := if given.has 'f' then files.removeAll target else files
                match files.resolve false target with
                | .ok (.free place _) =>
                  tell
                  Act.changed (linked files place entry source) none
                | .ok (.taken _ _) => failed .present
                | .error cause => failed cause
              else
                let dangles := match files.linkStat target, files.stat target with
                  | .ok (.link _), .error _ => true
                  | _, _ => false
                if dangles then refuse ("not writing through dangling symlink " ++ inQuotes target)
                else
                  tell
                  match files.writablePlace target with
                  | .ok place =>
                    let bits := match files.resolve true source with
                      | .ok (.taken old _) => files.permissionsAt old
                      | _ => 0o644
                    let files := files.write place content
                    let keepsBits := !isNew && !given.has 'p' && !given.has 'a'
                    Act.changed (if keepsBits || bits = files.permissionsAt place then files
                      else files.withPermissions place bits) none
                  | .error cause =>
                    let cause := if cause = .isDirectory && Files.endsWithSlash target then .notDirectory else cause
                    refuse ("cannot create regular file " ++ inQuotes target ++ ": " ++ reasonOf cause)

/-- Long names of the options that copying and moving have in common. -/
def transferNames : List (String × Char) :=
  [("force", 'f'), ("verbose", 'v'), ("no-clobber", 'n'), ("interactive", 'i'), ("update", 'u'),
    ("target-directory", 't'), ("no-target-directory", 'T'), ("backup", 'b'), ("suffix", 'S'),
    ("strip-trailing-slashes", '\x01')]

/-- Sources copied. -/
def cp (args : List Bytes) : Act Nat :=
  let long := transferNames ++ [("recursive", 'r'), ("archive", 'a'), ("no-dereference", 'P'), ("dereference", 'L'),
    ("link", 'l'), ("symbolic-link", 's'), ("parents", '\x02'), ("preserve", 'p'), ("no-preserve", '\x01'),
    ("remove-destination", '\x03'), ("one-file-system", 'x'), ("sparse", '\x01'), ("reflink", '\x01'),
    ("attributes-only", '\x01'), ("copy-contents", '\x01')]
  Act.withOptions "cp" 1 ⟨"abdfHilLnPpRrsTuvxZ", "St", long, false⟩ args fun given => do
    let files := (← get).files
    if given.has '\x02' then
      let target := (given.value? 't').getD (given.operands.getLastD [])
      let sources := if given.has 't' then given.operands else given.operands.dropLast
      if !isFolder files target then refuseWith "cp" "with --parents, the destination must be a directory"
      else
        Act.forEach (fun source => do
          let goal := nameBelow target (source.dropWhile (· = 47))
          let _ ← makeFolders [] (Files.withoutSlash (Files.parentText goal))
          copyPath given depthLimit source goal) sources
    else
      Act.forPairs "cp" (← sourcesAndTargets given) fun source target => do
        if given.has '\x03' then modify fun p => { p with files := p.files.removeAll target }
        copyPath given depthLimit source target

/-- One source moved to a target. -/
def movePath (given : Given) (source target : Bytes) : Act Nat := do
  let files := (← get).files
  let refuse := refuseWith "mv"
  let both : Bytes := inQuotes source ++ " to " ++ inQuotes target
  match files.linkStat source with
  | .error cause => refuse ("cannot stat " ++ inQuotes source ++ ": " ++ reasonOf cause)
  | .ok entry =>
    let isTree := entry = .directory
    let found := files.linkStat target
    let isOverFolder := match found with
      | .ok .directory => true
      | _ => false
    let isOverFile := match found with
      | .ok .directory | .error _ => false
      | .ok _ => true
    if isSamePlace files source target then
      refuse (inQuotes source ++ " and " ++ inQuotes target ++ " are the same file")
    else if ← isSpared "mv" given target then pure 0
    else if isSame files false source target then
      -- Two names of one file: renaming would keep both.
      if given.has 'v' then Act.put ("removed " ++ inQuotes source ++ "\n")
      let (files, fault) := files.remove source
      Act.changed files fault
    else if isTree && isOverFile then
      refuse ("cannot overwrite non-directory " ++ inQuotes target ++ " with directory " ++ inQuotes source)
    else if !isTree && isOverFolder then
      refuse ("cannot overwrite directory " ++ inQuotes target ++ " with non-directory")
    else if endsInDots source then refuse ("cannot move " ++ both ++ ": Device or resource busy")
    else
      keepBackup given target
      match (← get).files.renameEntry source target with
      | .ok files =>
        if given.has 'v' then Act.put ("renamed " ++ inQuotes source ++ " -> " ++ inQuotes target ++ "\n")
        Act.changed files none
      | .error .invalid =>
        refuse ("cannot move " ++ inQuotes source ++ " to a subdirectory of itself, " ++ inQuotes target)
      | .error .notEmpty => refuse ("cannot overwrite " ++ inQuotes target ++ ": " ++ reasonOf .notEmpty)
      | .error cause => refuse ("cannot move " ++ both ++ ": " ++ reasonOf cause)

/-- Sources moved. -/
def mv (args : List Bytes) : Act Nat :=
  Act.withOptions "mv" 1 ⟨"bfinuvTZ", "St", transferNames, false⟩ args fun given => do
    Act.forPairs "mv" (← sourcesAndTargets given) (movePath given)

/-- One link, or another name of a file, made. -/
def linkPath (given : Given) (source target : Bytes) : Act Nat := do
  let files := (← get).files
  let isSoft := given.has 's'
  let refuse := refuseWith "ln"
  let kind : Bytes := if isSoft then "symbolic link " else "hard link "
  let source? : Except Files.Cause Entry := if isSoft then .ok (.link []) else files.linkStat source
  match source? with
  | .error cause => refuse ("failed to access " ++ inQuotes source ++ ": " ++ reasonOf cause)
  | .ok .directory => refuse (inNeededQuotes source ++ ": hard link not allowed for directory")
  | .ok entry =>
    if given.has 'f' && isSame files false source target then
      refuse (inQuotes source ++ " and " ++ inQuotes target ++ " are the same file")
    else if given.has 'f' && files.isPlainDirectory target then
      refuse (inNeededQuotes target ++ ": cannot overwrite directory")
    else
      if files.exists? target then keepBackup given target
      let files := (← get).files
      let files := if given.has 'f' then files.removeAll target else files
      match files.resolve false target with
      | .ok (.taken _ _) => refuse ("failed to create " ++ kind ++ inQuotes target ++ ": " ++ reasonOf .present)
      | .ok (.free place slash) =>
        if slash then refuse ("failed to create " ++ kind ++ inQuotes target ++ ": " ++ reasonOf .missing)
        else
          let goal := if isSoft && given.has 'r' then
              match files.resolve true source with
              | .ok (.taken goal _) | .ok (.free goal _) => wayBetween place.dropLast goal
              | .error _ => source
            else source
          if given.has 'v' then
            Act.put (inQuotes target ++ (if isSoft then " -> " else " => ") ++ inQuotes goal ++ "\n")
          Act.changed (if isSoft then files.put place (.link goal) else linked files place entry source) none
      | .error cause =>
        let other : Bytes := if isSoft then [] else " => " ++ inQuotes source
        refuse ("failed to create " ++ kind ++ inQuotes target ++ other ++ ": " ++ reasonOf cause)

/-- Links and other names made. -/
def ln (args : List Bytes) : Act Nat :=
  let long := [("symbolic", 's'), ("force", 'f'), ("verbose", 'v'), ("no-dereference", 'n'), ("relative", 'r'),
    ("interactive", 'i'), ("target-directory", 't'), ("no-target-directory", 'T'), ("backup", 'b'), ("logical", 'L'),
    ("physical", 'P'), ("directory", 'd'), ("suffix", 'S')]
  Act.withOptions "ln" 1 ⟨"bdfFinLPrsTv", "St", long, false⟩ args fun given => do
    let files := (← get).files
    let isGoal (path : Bytes) : Bool :=
      isFolder files path && !(given.has 'n' && match files.linkStat path with
        | .ok (.link _) => true
        | _ => false)
    let single (source : Bytes) : Except Refusal Bytes := .ok (nameBelow Path.here (lastName source))
    Act.forPairs "ln" (Destination.pairs ⟨files, isGoal, single⟩ given) (linkPath given)

/-- Another name of a file. -/
def link (args : List Bytes) : Act Nat :=
  Act.withOptions "link" 1 ⟨"", "", [], false⟩ args fun given => do
    match given.operands with
    | [] => missingOperand "link" "operand"
    | [source] => missingOperand "link" ("operand after " ++ inQuotes source)
    | _ :: _ :: extra :: _ =>
      Act.report ("link: extra operand " ++ inQuotes extra)
      Act.report (helpHint "link")
      pure 1
    | [source, target] =>
      let files := (← get).files
      let refuse (cause : Files.Cause) : Act Nat :=
        refuseWith "link" ("cannot create link " ++ inQuotes target ++ " to " ++ inQuotes source ++ ": " ++ reasonOf cause)
      match files.linkStat source, files.resolve false target with
      | .error cause, _ | _, .error cause => refuse cause
      | _, .ok (.taken _ _) => refuse .present
      | .ok entry, .ok (.free place _) => Act.changed (linked files place entry source) none

/-- One source put in its place, with permissions to run it unless others are asked for. -/
def installPath (given : Given) (bits : Nat) (source target : Bytes) : Act Nat := do
  if given.has 'D' then
    let _ ← makeFolders (if given.has 'v' then "install: creating" else []) (Files.withoutSlash (Files.parentText target))
  let files := (← get).files
  let refuse := refuseWith "install"
  match files.stat source with
  | .error cause => refuse ("cannot stat " ++ inQuotes source ++ ": " ++ reasonOf cause)
  | .ok (.file content) =>
    if isSame files true source target then
      refuse (inQuotes source ++ " and " ++ inQuotes target ++ " are the same file")
    else
      if given.has 'v' && files.exists? target then Act.put ("removed " ++ inQuotes target ++ "\n")
      match files.writablePlace target with
      | .ok place =>
        if given.has 'v' then Act.put (inQuotes source ++ " -> " ++ inQuotes target ++ "\n")
        Act.changed ((files.write place content).withPermissions place bits) none
      | .error cause => refuse ("cannot create regular file " ++ inQuotes target ++ ": " ++ reasonOf cause)
  | .ok _ => refuse ("omitting directory " ++ inQuotes source)

/-- Files put in their places, or directories made. -/
def install (args : List Bytes) : Act Nat :=
  let long := [("directory", 'd'), ("mode", 'm'), ("verbose", 'v'), ("target-directory", 't'),
    ("no-target-directory", 'T'), ("owner", 'o'), ("group", 'g'), ("preserve-timestamps", 'p'), ("compare", 'C')]
  Act.withOptions "install" 1 ⟨"bcCdDpsTvZ", "gmoSt", long, false⟩ args fun given => do
    let mode := given.value? 'm'
    match (mode.getD "755" |> Permissions.Change.ofText?) with
    | none => refuseWith "install" ("invalid mode " ++ inQuotes (mode.getD []))
    | some change =>
      let bits := change.apply given.operands.isEmpty 0
      if given.has 'd' then
        if given.operands.isEmpty then missingOperand "install" "file operand"
        else
          Act.forEach (fun path => do
            match ← makeFolders (if given.has 'v' then "install: creating" else []) path with
            | some (place, reason) =>
              refuseWith "install" ("cannot create directory " ++ inQuotes place ++ ": " ++ reason)
            | none =>
              let files := (← get).files
              match files.resolve true path with
              | .ok (.taken place _) => Act.changed (files.withPermissions place bits) none
              | _ => pure 0) given.operands
      else Act.forPairs "install" (← sourcesAndTargets given) (installPath given bits)

end Programs

end Shell

end MobilitySweep
