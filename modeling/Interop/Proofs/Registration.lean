import Interop.Package
import Interop.Proofs.Action
import Mathlib.Data.Finset.Card

/-
  What packages hold. A package is filled by registrations,
  one after another; one that fails leaves it as it was. The
  values that the others give are its history, and all that
  can be asked of a package is known from that: each name has
  the last value given under it, and the log tells of each
  value, with a warning where the name had one before.

  Main declarations:
    * `Registration`
    * `Registration.history`
    * `Registration.events`
    * `Package.registerAll`
    * `Package.setAll`
    * `Package.HoldsLast`
    * `Package.holdsLast_setAll`
    * `Package.registerAll_eq`
    * `Package.table_of_registrations`
-/

namespace Interop

------------------------------------------------------------
-- Names in Order
------------------------------------------------------------

/- Texts that begin alike are ordered by what follows. -/
theorem Text.Precedes.append_left
    {s t : String}
    (hBefore : Text.Precedes s t)
    (u : String) :
    Text.Precedes (u ++ s) (u ++ t) := by
  unfold Text.Precedes
  rw [Text.bytes_append, Text.bytes_append]
  exact List.append_left_lt hBefore

namespace NameMap

variable {α : Type} {m : NameMap α}

/- Names that increase differ. -/
theorem Increasing.nodup_names
    (hIncreasing : Increasing m) :
    m.names.Nodup := by
  apply List.pairwise_map.mpr
  refine hIncreasing.imp ?_
  intro entry later hBefore hSame
  rw [hSame] at hBefore
  exact Text.not_precedes_self _ hBefore

theorem find?_eq_none_iff
    {name : String} :
    m.find? name = none ↔ name ∉ m.names := by
  rw [find?, List.lookup_eq_none_iff, names, List.mem_map,
    not_exists]
  constructor
  · rintro hOther entry ⟨hMem, rfl⟩
    simpa using hOther entry hMem
  · intro hOther entry hMem
    rw [bne_iff_ne]
    rintro rfl
    exact hOther entry ⟨hMem, rfl⟩

/- Each entry is found if no name has two of them. -/
theorem Increasing.mem_iff
    (hIncreasing : Increasing m)
    {name : String}
    {a : α} :
    (name, a) ∈ m ↔ m.find? name = some a := by
  induction m with
  | nil => simp [find?]
  | cons first rest ih =>
      obtain ⟨n, b⟩ := first
      obtain ⟨hFirst, hRest⟩ := List.pairwise_cons.mp hIncreasing
      rw [List.mem_cons, ih hRest, find?, find?, List.lookup_cons]
      by_cases hSame : name = n
      · subst hSame
        have hNone : find? rest name = none := by
          rw [find?_eq_none_iff]
          intro hMem
          obtain ⟨entry, hIn, hName⟩ := List.mem_map.mp hMem
          have hBefore := hFirst entry hIn
          rw [hName] at hBefore
          exact Text.not_precedes_self _ hBefore
        rw [find?] at hNone
        simp [hNone, eq_comm]
      · have hBeq : (name == n) = false := by simpa using hSame
        simp [hSame, hBeq]

end NameMap

------------------------------------------------------------
-- Registrations
------------------------------------------------------------

/- What a host asks a package to offer under a name. -/
inductive Registration where
| function
    (name : String)
    (sig : Signature)
    (body : HostFunction) : Registration
| constructor
    (name : String)
    (type : HostType) : Registration
| constant
    (name : String)
    (v : HostValue)
    (type : HostType) : Registration

namespace Registration

/- The name that is registered. -/
def name : Registration → String
| .function name _ _ => name
| .constructor name _ => name
| .constant name _ _ => name

/- The value that is registered in a package. -/
def entry
    (s : Schema)
    (package : String) : Registration → Action Value
| .function name sig body => do
    let identity ← Action.fresh
    let c : Callable := ⟨package ++ "." ++ name, sig, .free body⟩
    pure (.function identity (.callable c))
| .constructor _ type => do
    let identity ← Action.fresh
    pure (.function identity (.constructor type))
| .constant _ v type => Action.onHeap (type.importAs s v)

/- Register something in a package. -/
def register
    (s : Schema)
    (p : Package) : Registration → Action Package
| .function name sig body => p.function name sig body
| .constructor name type => p.constructor name type
| .constant name v type => p.constant s name v type

/-
  The values that registrations give, with their names, in
  the order of the registrations. One that fails gives none.
-/
def history
    (s : Schema)
    (package : String) :
    List Registration → World → List (String × Value)
| [], _ => []
| r :: rest, w =>
    match r.entry s package w with
    | (.ok v, w') => (r.name, v) :: history s package rest w'
    | (.error _, w') => history s package rest w'

/-
  What is logged when values are given under names, some of
  which were seen before.
-/
def events
    (package : String)
    (seen : List String) : List String → List Event
| [] => []
| name :: rest =>
    .registering package name ::
      ((if name ∈ seen then [.redefined package name] else []) ++
        events package (name :: seen) rest)

variable {s : Schema} {p : Package} {r : Registration}

/- A registration is the value and then the entry. -/
theorem register_eq
    (r : Registration) :
    r.register s p = r.entry s p.name >>= p.register r.name := by
  cases r with
  | function name sig body =>
      rw [register, entry, Package.function, bind_assoc]
      rfl
  | constructor name type =>
      rw [register, entry, Package.constructor, bind_assoc]
      rfl
  | constant name v type => rfl

/- Values do not depend on the log, and are not logged. -/
theorem entry_withLog
    (package : String)
    (r : Registration)
    (w : World)
    (log : List Event) :
    r.entry s package { w with log } =
      ((r.entry s package w).1,
        { (r.entry s package w).2 with log }) := by
  cases r with
  | function name sig body => rfl
  | constructor name type => rfl
  | constant name v type =>
      simp only [entry, Action.onHeap]
      cases type.importAs s v w.heap <;> rfl

theorem log_entry
    (package : String)
    (r : Registration)
    (w : World) :
    (r.entry s package w).2.log = w.log := by
  have hSame := r.entry_withLog package (s := s) w w.log
  rw [hSame]

/- What was logged does not matter to the values. -/
theorem history_withLog
    (package : String)
    (rs : List Registration)
    (w : World)
    (log : List Event) :
    history s package rs { w with log } =
      history s package rs w := by
  induction rs generalizing w with
  | nil => rfl
  | cons r rest ih =>
      rw [history, history, entry_withLog]
      rcases r.entry s package w with ⟨outcome, w'⟩
      cases outcome with
      | error e => exact ih w'
      | ok v => exact congrArg ((r.name, v) :: ·) (ih w')

/- Only a constant that is not converted gives no value. -/
theorem entry_eq_error_iff
    {package : String}
    {w w' : World}
    {e : Error} :
    r.entry s package w = (.error e, w') ↔
      w' = w ∧ ∃ name v type, r = .constant name v type ∧
        type.importAs s v w.heap = .error e := by
  cases r with
  | constant name v type =>
      simp only [entry, Action.onHeap]
      cases hImport : type.importAs s v w.heap with
      | ok result =>
          constructor
          · intro hFails
            cases hFails
          · rintro ⟨-, _, _, _, ⟨⟩, hFails⟩
            rw [hImport] at hFails
            cases hFails
      | error cause =>
          constructor
          · intro hFails
            cases hFails
            exact ⟨rfl, name, v, type, rfl, hImport⟩
          · rintro ⟨rfl, _, _, _, ⟨⟩, hFails⟩
            rw [hImport] at hFails
            cases hFails
            rfl
  | _ =>
      constructor
      · intro hFails
        cases hFails
      · rintro ⟨-, _, _, _, hOther, -⟩
        cases hOther

end Registration

------------------------------------------------------------
-- Tables of Last Values
------------------------------------------------------------

namespace Package

variable {s : Schema} {p : Package}

/- Set an entry; nothing is logged. -/
def set
    (p : Package)
    (name : String)
    (v : Value) : Package :=
  { p with entries := p.entries.insert name v }

/- Set entries one after another. -/
def setAll (p : Package) : List (String × Value) → Package
| [] => p
| (name, v) :: rest => (p.set name v).setAll rest

/-
  A package holds the last values of a history and nothing
  else: each name counts once, and stands once in the list of
  entries, which is in the order of the bytes of the names.
-/
structure HoldsLast
    (p : Package)
    (name : String)
    (history : List (String × Value)) : Prop where
  found : ∀ n v, p.get? n = some v ↔
    ∃ before after,
      history = before ++ (n, v) :: after ∧
      ∀ entry ∈ after, entry.1 ≠ n
  absent : ∀ n, p.get? n = none ↔ n ∉ history.map (·.1)
  size : p.size = (history.map (·.1)).toFinset.card
  listed : ∃ entries : NameMap Value,
    p.qualified =
      entries.map (fun entry => (name ++ "." ++ entry.1, entry.2)) ∧
    entries.Increasing ∧
    ∀ n v, (n, v) ∈ entries ↔ p.get? n = some v
  increasing : NameMap.Increasing p.qualified
  distinct : (NameMap.names p.qualified).Nodup

theorem get?_set
    (name other : String)
    (v : Value) :
    (p.set name v).get? other =
      if other = name then some v else p.get? other := by
  by_cases hSame : other = name
  · subst hSame
    rw [if_pos rfl]
    exact NameMap.find?_insert_self p.entries other v
  · rw [if_neg hSame]
    exact NameMap.find?_insert_of_ne p.entries v hSame

/- Later values hide earlier ones, and those set before. -/
theorem get?_setAll
    (history : List (String × Value))
    (name : String) :
    (p.setAll history).get? name =
      (history.reverse.lookup name).or (p.get? name) := by
  induction history generalizing p with
  | nil => rfl
  | cons entry rest ih =>
      obtain ⟨n, v⟩ := entry
      rw [setAll, ih, get?_set, List.reverse_cons,
        List.lookup_append, Option.or_assoc]
      congr 1
      by_cases hSame : name = n
      · subst hSame
        simp
      · have hBeq : (name == n) = false := by simpa using hSame
        simp [hSame, List.lookup_cons, hBeq]

theorem name_setAll
    (history : List (String × Value)) :
    (p.setAll history).name = p.name := by
  induction history generalizing p with
  | nil => rfl
  | cons entry rest ih => exact ih

theorem increasing_setAll
    (hIncreasing : p.entries.Increasing)
    (history : List (String × Value)) :
    (p.setAll history).entries.Increasing := by
  induction history generalizing p with
  | nil => exact hIncreasing
  | cons entry rest ih =>
      exact ih (NameMap.increasing_insert hIncreasing _ _)

/- What is found is the last value under the name. -/
theorem get?_setAll_eq_some_iff
    {package name : String}
    {history : List (String × Value)}
    {v : Value} :
    ((named package).setAll history).get? name = some v ↔
      ∃ before after,
        history = before ++ (name, v) :: after ∧
        ∀ entry ∈ after, entry.1 ≠ name := by
  have hNew : (named package).get? name = none := rfl
  rw [get?_setAll, hNew, Option.or_none, List.lookup_eq_some_iff]
  constructor
  · rintro ⟨after, before, hReverse, hOther⟩
    refine ⟨before.reverse, after.reverse, ?_, ?_⟩
    · rw [← List.reverse_reverse history, hReverse]
      simp
    · intro entry hMem
      have hNe := hOther entry (List.mem_reverse.mp hMem)
      exact (bne_iff_ne.mp hNe).symm
  · rintro ⟨before, after, rfl, hOther⟩
    refine ⟨after.reverse, before.reverse, by simp, ?_⟩
    intro entry hMem
    have hNe := hOther entry (List.mem_reverse.mp hMem)
    exact bne_iff_ne.mpr hNe.symm

/- The names found are those that were given. -/
theorem mem_names_setAll_iff
    {package name : String}
    {history : List (String × Value)} :
    name ∈ ((named package).setAll history).entries.names ↔
      name ∈ history.map (·.1) := by
  have hNew : (named package).get? name = none := rfl
  have hFound := get?_setAll (p := named package) history name
  rw [hNew, Option.or_none] at hFound
  have hNone : _ ↔ name ∉ history.reverse.map (·.1) :=
    NameMap.find?_eq_none_iff (m := history.reverse)
  rw [NameMap.find?, ← hFound, get?, NameMap.find?_eq_none_iff,
    not_iff_not] at hNone
  rw [hNone, List.map_reverse, List.mem_reverse]

/- Names given more than once count once. -/
theorem size_setAll
    (package : String)
    (history : List (String × Value)) :
    ((named package).setAll history).size =
      (history.map (·.1)).toFinset.card := by
  have hIncreasing :
      ((named package).setAll history).entries.Increasing :=
    increasing_setAll (p := named package) .nil history
  have hSame :
      ((named package).setAll history).entries.names.toFinset =
        (history.map (·.1)).toFinset := by
    ext name
    rw [List.mem_toFinset, List.mem_toFinset, mem_names_setAll_iff]
  rw [← hSame, List.toFinset_card_of_nodup hIncreasing.nodup_names,
    NameMap.names, List.length_map, size]

/- Qualified names have the order of the names. -/
theorem increasing_qualified
    (hIncreasing : p.entries.Increasing) :
    NameMap.Increasing p.qualified := by
  apply List.pairwise_map.mpr
  refine hIncreasing.imp ?_
  intro entry later hBefore
  exact hBefore.append_left (p.name ++ ".")

/- Setting all values of a history leaves the last ones. -/
theorem holdsLast_setAll
    (name : String)
    (history : List (String × Value)) :
    ((named name).setAll history).HoldsLast name history := by
  have hIncreasing :
      ((named name).setAll history).entries.Increasing :=
    increasing_setAll (p := named name) .nil history
  have hQualified := increasing_qualified hIncreasing
  have hName : ((named name).setAll history).name = name :=
    name_setAll history
  exact {
    found := fun n v => get?_setAll_eq_some_iff
    absent := by
      intro n
      rw [get?, NameMap.find?_eq_none_iff, mem_names_setAll_iff]
    size := size_setAll name history
    listed := by
      refine ⟨_, ?_, hIncreasing, fun n v => hIncreasing.mem_iff⟩
      simp only [qualified, qualify, hName]
    increasing := hQualified
    distinct := hQualified.nodup_names }

------------------------------------------------------------
-- Runs
------------------------------------------------------------

/-
  Register one after another. What fails leaves the package
  as it was.
-/
def registerAll
    (s : Schema)
    (p : Package) :
    List Registration → World → Package × World
| [], w => (p, w)
| r :: rest, w =>
    match r.register s p w with
    | (.ok p', w') => p'.registerAll s rest w'
    | (.error _, w') => p.registerAll s rest w'

/- Registering sets an entry and tells so. -/
theorem register_apply
    (name : String)
    (v : Value)
    (w : World) :
    p.register name v w =
      (.ok (p.set name v),
        { w with
          log := w.log ++ .registering p.name name ::
            (if (p.get? name).isSome then
              [.redefined p.name name]
            else
              []) }) := by
  rw [register, Action.bind_apply]
  simp only [Action.emit, set]
  split
  · simp only [Action.bind_apply, Action.emit, Action.pure_apply,
      List.append_assoc, List.cons_append, List.nil_append]
  · rfl

/-
  A registration fails exactly if there is no value, and
  changes nothing then.
-/
theorem register_eq_error_iff
    {r : Registration}
    {w w' : World}
    {e : Error} :
    r.register s p w = (.error e, w') ↔
      w' = w ∧ ∃ name v type, r = .constant name v type ∧
        type.importAs s v w.heap = .error e := by
  rw [Registration.register_eq, Action.bind_eq_error_iff,
    Registration.entry_eq_error_iff]
  constructor
  · rintro (hFails | ⟨v, w₁, -, hEntry⟩)
    · exact hFails
    · rw [register_apply] at hEntry
      cases hEntry
  · exact .inl

/-
  A run of registrations sets the values of its history and
  logs each of them. The induction keeps track of the names
  that the package has.
-/
theorem registerAll_eq
    (rs : List Registration)
    (w : World)
    {seen : List String}
    (hSeen : ∀ name, name ∈ seen ↔ (p.get? name).isSome) :
    (p.registerAll s rs w).1 =
        p.setAll (Registration.history s p.name rs w) ∧
      (p.registerAll s rs w).2.log =
        w.log ++ Registration.events p.name seen
          ((Registration.history s p.name rs w).map (·.1)) := by
  induction rs generalizing p w seen with
  | nil => simp [registerAll, Registration.history, setAll,
      Registration.events]
  | cons r rest ih =>
      have hLog := r.log_entry (s := s) p.name w
      rw [registerAll, Registration.register_eq, Action.bind_apply,
        Registration.history]
      rcases hEntry : r.entry s p.name w with ⟨outcome, w'⟩
      rw [hEntry] at hLog
      cases outcome with
      | error e =>
          rw [← hLog]
          exact ih w' hSeen
      | ok v =>
          have hSeen' : ∀ name, name ∈ r.name :: seen ↔
              ((p.set r.name v).get? name).isSome := by
            intro name
            rw [List.mem_cons, hSeen, get?_set]
            by_cases hSame : name = r.name <;> simp [hSame]
          rcases ih _ hSeen' with ⟨hTable, hEvents⟩
          simp only [register_apply]
          rw [hTable, hEvents, Registration.history_withLog]
          refine ⟨rfl, ?_⟩
          rw [List.map_cons, Registration.events, ← hLog]
          simp only [hSeen, List.append_assoc, List.cons_append]
          rfl

/-
  A package is the map of the last values that were given
  under its names. The log has an event for each value that
  was given, and a warning right after it where the name had
  a value. A registration that fails changes nothing and is
  not logged.
-/
theorem table_of_registrations
    (s : Schema)
    (name : String)
    (rs : List Registration)
    (w : World) :
    let run := (named name).registerAll s rs w
    let history := Registration.history s name rs w
    run.1.HoldsLast name history ∧
    run.2.log =
      w.log ++ Registration.events name [] (history.map (·.1)) ∧
    (∀ n, (Event.registering name n).level = .debug ∧
      (Event.redefined name n).level = .warn) ∧
    ∀ (p : Package) (r : Registration) (w w' : World) (e : Error),
      r.register s p w = (.error e, w') ↔
        w' = w ∧ ∃ n v type, r = .constant n v type ∧
          type.importAs s v w.heap = .error e := by
  intro run history
  have hNew : ∀ n, n ∈ [] ↔ ((named name).get? n).isSome := by
    intro n
    simp [get?, named, NameMap.find?]
  rcases registerAll_eq (p := named name) (s := s) rs w hNew with
    ⟨hTable, hLog⟩
  refine ⟨?_, hLog, fun n => ⟨rfl, rfl⟩,
    fun p r w w' e => register_eq_error_iff⟩
  have hTable : run.1 = (named name).setAll history := hTable
  rw [hTable]
  exact holdsLast_setAll name history

/- Four registrations in a package of constants. -/
def answers : List Registration :=
  [.constant "Answer" (.int 41) (.int .i64),
    .constructor "Text" .str,
    .constant "Rate" (.str "low") (.int .i64),
    .constant "Answer" (.int 42) (.int .i64)]

/-
  One of the names is registered twice, and another one not
  at all, since its value does not convert.
-/
theorem table_of_registrations_answers :
    let run := (named "consts").registerAll .empty answers .initial
    run.1.get? "Answer" = some (.int 42) ∧
    run.1.get? "Rate" = none ∧
    run.1.size = 2 ∧
    (NameMap.names run.1.qualified).Nodup ∧
    run.2.log =
      [.registering "consts" "Answer",
        .registering "consts" "Text",
        .registering "consts" "Answer",
        .redefined "consts" "Answer"] := by
  have hAll := table_of_registrations .empty "consts" answers .initial
  have hLast :
      Registration.history .empty "consts" answers .initial =
        [("Answer", .int 41),
          ("Text", .function 0 (.constructor .str))] ++
          [("Answer", .int 42)] := rfl
  have hHolds := hAll.1
  exact ⟨(hHolds.found _ _).mpr ⟨_, [], hLast, by simp⟩,
    (hHolds.absent "Rate").mpr (by decide), hHolds.size,
    hHolds.distinct, hAll.2.1⟩

end Package

end Interop
