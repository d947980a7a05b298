import Interop.Text.Encoding

/-
  This file defines maps from names. Entries are kept in the
  order of the bytes of their names, one for each name.

  Key definitions include:
    * `NameMap`
    * `NameMap.insert`
    * `NameMap.find?`
    * `NameMap.Increasing`
-/

namespace Interop

/- Entries with their names. -/
abbrev NameMap (α : Type) :=
  List (String × α)

namespace NameMap

variable {α : Type}

/- Set the entry of a name, new or not. -/
def insert
    (name : String)
    (a : α) : NameMap α → NameMap α
| [] => [(name, a)]
| (n, b) :: rest =>
    if Text.Precedes name n then
      (name, a) :: (n, b) :: rest
    else if name = n then
      (name, a) :: rest
    else
      (n, b) :: insert name a rest

/- The entry of a name. -/
def find?
    (m : NameMap α)
    (name : String) : Option α :=
  List.lookup name m

/- The names strictly increase. -/
def Increasing (m : NameMap α) : Prop :=
  m.Pairwise fun entry later => Text.Precedes entry.1 later.1

/- The names, in order. -/
def names (m : NameMap α) : List String :=
  m.map (·.1)

/- The entry just set is found. -/
theorem find?_insert_self
    (m : NameMap α)
    (name : String)
    (a : α) :
    find? (insert name a m) name = some a := by
  induction m with
  | nil => simp [insert, find?]
  | cons entry rest ih =>
      obtain ⟨n, b⟩ := entry
      unfold insert
      split
      · simp [find?]
      · split
        · simp [find?]
        · rename_i hNe
          have hBeq : (name == n) = false := by
            simpa using hNe
          simpa [find?, List.lookup_cons, hBeq] using ih

/- Setting an entry leaves the other names alone. -/
theorem find?_insert_of_ne
    (m : NameMap α)
    {name other : String}
    (a : α)
    (hNe : other ≠ name) :
    find? (insert name a m) other = find? m other := by
  have hOther : (other == name) = false := by simpa using hNe
  induction m with
  | nil => simp [insert, find?, List.lookup_cons, hOther]
  | cons entry rest ih =>
      obtain ⟨n, b⟩ := entry
      unfold insert
      split
      · simp [find?, List.lookup_cons, hOther]
      · split
        · rename_i hEq
          subst hEq
          simp [find?, List.lookup_cons, hOther]
        · simp only [find?, List.lookup_cons] at ih ⊢
          cases other == n with
          | true => rfl
          | false => simpa using ih

/- Only the name just set can be new. -/
theorem mem_insert
    {m : NameMap α}
    {name : String}
    {a : α}
    {entry : String × α}
    (hMem : entry ∈ insert name a m) :
    entry = (name, a) ∨ entry ∈ m := by
  induction m with
  | nil => simpa [insert] using hMem
  | cons first rest ih =>
      obtain ⟨n, b⟩ := first
      unfold insert at hMem
      split at hMem
      · simpa using hMem
      · split at hMem
        · rcases List.mem_cons.mp hMem with hEq | hRest
          · exact Or.inl hEq
          · exact Or.inr (List.mem_cons_of_mem _ hRest)
        · rcases List.mem_cons.mp hMem with hEq | hRest
          · exact Or.inr (hEq ▸ List.mem_cons_self)
          · rcases ih hRest with hNew | hOld
            · exact Or.inl hNew
            · exact Or.inr (List.mem_cons_of_mem _ hOld)

/- Setting an entry keeps the names increasing. -/
theorem increasing_insert
    {m : NameMap α}
    (hIncreasing : Increasing m)
    (name : String)
    (a : α) :
    Increasing (insert name a m) := by
  induction m with
  | nil => simp [insert, Increasing]
  | cons first rest ih =>
      obtain ⟨n, b⟩ := first
      obtain ⟨hFirst, hRest⟩ := List.pairwise_cons.mp hIncreasing
      unfold insert
      split
      · rename_i hBefore
        apply List.pairwise_cons.mpr
        constructor
        · intro entry hMem
          rcases List.mem_cons.mp hMem with hEq | hLater
          · subst hEq
            exact hBefore
          · exact hBefore.trans (hFirst entry hLater)
        · exact hIncreasing
      · rename_i hNotBefore
        split
        · rename_i hEq
          subst hEq
          exact List.pairwise_cons.mpr ⟨hFirst, hRest⟩
        · rename_i hNe
          apply List.pairwise_cons.mpr
          constructor
          · intro entry hMem
            rcases mem_insert hMem with hEq | hLater
            · subst hEq
              exact Text.precedes_of_not_precedes hNotBefore hNe
            · exact hFirst entry hLater
          · exact ih hRest

end NameMap

end Interop
