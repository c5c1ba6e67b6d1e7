set_option autoImplicit false

/-!
Stacks that know their height. The elements are listed from the top; the height is kept beside them
so that asking for it does not walk the list.
-/

namespace Catena

structure Stack (α : Type) where
  toList : List α
  size : Nat
  length_eq : toList.length = size

namespace Stack

variable {α : Type}

def empty : Stack α := ⟨[], 0, rfl⟩

instance : Inhabited (Stack α) := ⟨empty⟩

def ofList (items : List α) : Stack α := ⟨items, items.length, rfl⟩

def isEmpty (s : Stack α) : Bool := s.toList.isEmpty

def push (s : Stack α) (a : α) : Stack α :=
  ⟨a :: s.toList, s.size + 1, by simp [s.length_eq]⟩

/-- Takes the topmost `n` elements away. -/
def drop (s : Stack α) (n : Nat) : Stack α :=
  ⟨s.toList.drop n, s.size - n, by simp [s.length_eq]⟩

def pop? (s : Stack α) : Option (α × Stack α) :=
  match s.toList with
  | [] => none
  | a :: _ => some (a, s.drop 1)

/-- Keeps the `height` elements at the bottom. -/
def keep (s : Stack α) (height : Nat) : Stack α := s.drop (s.size - height)

/-- The elements above the `height` at the bottom, lowest first. -/
def above (s : Stack α) (height : Nat) : List α :=
  (s.toList.take (s.size - height)).reverse

/-- The `height` elements at the bottom, topmost first. -/
def below (s : Stack α) (height : Nat) : List α :=
  s.toList.drop (s.size - height)

/-- The elements above the topmost one that `read?` accepts, what it reads there, and the elements
below. -/
def split? {β : Type} (s : Stack α) (read? : α → Option β) : Option (List α × β × Stack α) :=
  let above := s.toList.takeWhile fun a => (read? a).isNone
  match (s.drop above.length).pop? with
  | none => none
  | some (a, below) => (read? a).map fun b => (above, b, below)

theorem ext {s t : Stack α} (h : s.toList = t.toList) : s = t := by
  obtain ⟨items, size, rfl⟩ := s
  obtain ⟨items', size', rfl⟩ := t
  cases h
  rfl

@[simp] theorem toList_empty : (empty : Stack α).toList = [] := rfl

@[simp] theorem size_empty : (empty : Stack α).size = 0 := rfl

@[simp] theorem toList_ofList (items : List α) : (ofList items).toList = items := rfl

@[simp] theorem size_ofList (items : List α) : (ofList items).size = items.length := rfl

@[simp] theorem toList_push (s : Stack α) (a : α) : (s.push a).toList = a :: s.toList := rfl

@[simp] theorem size_push (s : Stack α) (a : α) : (s.push a).size = s.size + 1 := rfl

@[simp] theorem toList_drop (s : Stack α) (n : Nat) : (s.drop n).toList = s.toList.drop n := rfl

@[simp] theorem size_drop (s : Stack α) (n : Nat) : (s.drop n).size = s.size - n := rfl

@[simp] theorem size_keep (s : Stack α) (height : Nat) :
    (s.keep height).size = min height s.size := by
  simp only [keep, size_drop]
  omega

theorem pop?_eq_none_iff {s : Stack α} : s.pop? = none ↔ s.toList = [] := by
  unfold pop?
  split <;> simp_all

theorem pop?_eq_some_iff {s t : Stack α} {a : α} :
    s.pop? = some (a, t) ↔ s.toList = a :: t.toList := by
  unfold pop?
  split
  · next h => simp [h]
  · next b rest h =>
    simp only [Option.some.injEq, Prod.mk.injEq, h, List.cons.injEq]
    constructor
    · rintro ⟨rfl, rfl⟩
      simp [h]
    · rintro ⟨rfl, rfl⟩
      exact ⟨rfl, ext (by simp [h])⟩

theorem size_of_pop? {s t : Stack α} {a : α} (h : s.pop? = some (a, t)) :
    s.size = t.size + 1 := by
  have h := congrArg List.length (pop?_eq_some_iff.1 h)
  simpa [s.length_eq, t.length_eq] using h

end Stack

end Catena
