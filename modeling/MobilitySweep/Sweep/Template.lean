import MobilitySweep.Fault
import MobilitySweep.Text.Quoted

/-! # Templates

A simulator configuration in which a placeholder stands for the name of the trace.
-/

namespace MobilitySweep

/-- A text in which the placeholder occurs. -/
structure Template where
  text : Bytes
  placeholder : Bytes
deriving DecidableEq, Repr, Inhabited

namespace Template

/-- Why a text is no template. -/
inductive Invalid where
  | emptyPlaceholder
  | noPlaceholder (placeholder : Bytes)
deriving DecidableEq, Repr

/-- The refusal as a fault. -/
def Invalid.fault : Invalid → Fault
  | emptyPlaceholder => .plain "template placeholder is empty"
  | noPlaceholder p => ⟨.noPlaceholder, "template does not contain placeholder " ++ Quoted.quote p⟩

/-- A template for a text that mentions the placeholder. -/
def create (text placeholder : Bytes) : Except Invalid Template :=
  if placeholder.isEmpty then .error .emptyPlaceholder
  else if Bytes.occursIn placeholder text then .ok ⟨text, placeholder⟩
  else .error (.noPlaceholder placeholder)

/-- The template with every occurrence of the placeholder replaced by a name. -/
def render (t : Template) (name : Bytes) : Bytes := Bytes.replaceAll t.placeholder name t.text

end Template

end MobilitySweep
