set_option autoImplicit false

/-!
Places in a source text. Lines and columns count from one; the place `0:0` stands for code that was
never written down.
-/

namespace Catena

structure Origin where
  line : Nat
  column : Nat
  deriving DecidableEq, Repr

namespace Origin

def none : Origin := ⟨0, 0⟩

def start : Origin := ⟨1, 1⟩

instance : Inhabited Origin := ⟨none⟩

/-- The place after `c`: a newline opens the next line, every other character is one column wide. -/
def next (o : Origin) (c : Char) : Origin :=
  if c = '\n' then ⟨o.line + 1, 1⟩ else ⟨o.line, o.column + 1⟩

/-- The place after a whole text. -/
def after (o : Origin) (text : List Char) : Origin :=
  text.foldl next o

@[simp] theorem after_nil (o : Origin) : o.after [] = o := rfl

@[simp] theorem after_cons (o : Origin) (c : Char) (text : List Char) :
    o.after (c :: text) = (o.next c).after text := rfl

@[simp] theorem after_append (o : Origin) (first second : List Char) :
    o.after (first ++ second) = (o.after first).after second := by
  simp [after]

def display (o : Origin) : String :=
  s!"{o.line}:{o.column}"

end Origin

end Catena
