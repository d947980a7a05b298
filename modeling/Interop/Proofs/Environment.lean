import Interop.Options.Environment
import Mathlib.Data.List.TakeWhile
import Mathlib.Data.Nat.Digits.Defs

/-
  Options come in layers. A variable that is set decides its
  own option, whatever the others say; below it are the
  options that JSON gives, and below these the defaults. A
  variable that cannot be read spoils all of them, and then
  the defaults are taken and one warning is logged.

  What can be read is said without the reader: a limit is a
  decimal numeral with blanks around it, and its value is
  that of its digits; a switch is off by nothing, a zero or
  one of three spellings of false, with blanks around it.

  Main declarations:
    * `Text.IsNumeral`
    * `Text.Denotes`
    * `Text.readUnsigned_trim_eq_some_iff`
    * `Environment.SwitchesOff`
    * `Environment.isOn_eq_false_iff`
    * `Environment.HasBase`
    * `Environment.Overrides`
    * `Environment.RefusesJson`
    * `Environment.RefusesLimit`
    * `Options.ofEnvironment_eq_ok_iff`
    * `Options.ofEnvironment_is_layered`
-/

namespace Interop

namespace Text

------------------------------------------------------------
-- Blanks
------------------------------------------------------------

/- No other characters than blanks. -/
def IsBlankRun (cs : List Char) : Prop :=
  ∀ c ∈ cs, isBlank c = true

/- A text without anything but blanks. -/
def IsBlankText (s : String) : Prop :=
  IsBlankRun s.toList

/- Blanks in front can be dropped. -/
theorem dropWhile_of_isBlankRun
    {before : List Char}
    (hBefore : IsBlankRun before)
    (rest : List Char) :
    (before ++ rest).dropWhile isBlank =
      rest.dropWhile isBlank :=
  List.dropWhile_append_of_pos hBefore

/- Of blanks nothing is left. -/
theorem trimBlanks_of_isBlankRun
    {cs : List Char}
    (hBlank : IsBlankRun cs) :
    trimBlanks cs = [] := by
  have hDropped := dropWhile_of_isBlankRun hBlank []
  rw [List.append_nil] at hDropped
  simp [trimBlanks, hDropped]

/- What has no blanks at all has none in front. -/
theorem dropWhile_isBlank_self
    {core : List Char}
    (hSome : core ≠ [])
    (hCore : ∀ c ∈ core, isBlank c = false)
    (rest : List Char) :
    (core ++ rest).dropWhile isBlank = core ++ rest := by
  cases core with
  | nil => exact absurd rfl hSome
  | cons c others =>
      have hHead : isBlank c = false := hCore c List.mem_cons_self
      simp [hHead]

/- Around what has no blanks, all blanks go. -/
theorem trimBlanks_padded
    {before core after : List Char}
    (hBefore : IsBlankRun before)
    (hAfter : IsBlankRun after)
    (hCore : ∀ c ∈ core, isBlank c = false) :
    trimBlanks (before ++ core ++ after) = core := by
  by_cases hNone : core = []
  · rw [hNone, List.append_nil]
    apply trimBlanks_of_isBlankRun
    intro c hMem
    exact (List.mem_append.mp hMem).elim (hBefore c) (hAfter c)
  -- the blanks behind are those in front of the reversed text
  · have hAfter' : IsBlankRun after.reverse :=
      fun c hMem => hAfter c (List.mem_reverse.mp hMem)
    have hSome' : core.reverse ≠ [] :=
      fun hNil => hNone (List.reverse_eq_nil_iff.mp hNil)
    have hCore' : ∀ c ∈ core.reverse, isBlank c = false :=
      fun c hMem => hCore c (List.mem_reverse.mp hMem)
    have hRight := dropWhile_isBlank_self hSome' hCore' []
    rw [List.append_nil] at hRight
    rw [trimBlanks, List.append_assoc,
      dropWhile_of_isBlankRun hBefore,
      dropWhile_isBlank_self hNone hCore after,
      List.reverse_append, dropWhile_of_isBlankRun hAfter', hRight,
      List.reverse_reverse]

/- Only blanks are lost. -/
theorem exists_trimBlanks
    (cs : List Char) :
    ∃ before after,
      cs = before ++ trimBlanks cs ++ after ∧
      IsBlankRun before ∧ IsBlankRun after := by
  let rest := cs.dropWhile isBlank
  refine ⟨cs.takeWhile isBlank,
    (rest.reverse.takeWhile isBlank).reverse, ?_, ?_, ?_⟩
  · have hRest :
        rest =
          trimBlanks cs ++
            (rest.reverse.takeWhile isBlank).reverse := by
      rw [trimBlanks, ← List.reverse_append,
        List.takeWhile_append_dropWhile, List.reverse_reverse]
    rw [List.append_assoc, ← hRest,
      List.takeWhile_append_dropWhile]
  · exact fun c hMem => List.mem_takeWhile_imp hMem
  · intro c hMem
    exact List.mem_takeWhile_imp (List.mem_reverse.mp hMem)

/-
  A word without blanks is what is left of a text exactly if
  the text is the word between blanks.
-/
theorem trim_eq_iff
    {s word : String}
    (hWord : ∀ c ∈ word.toList, isBlank c = false) :
    trim s = word ↔
      ∃ before after,
        s.toList = before ++ word.toList ++ after ∧
        IsBlankRun before ∧ IsBlankRun after := by
  have hLeft :
      trim s = word ↔ trimBlanks s.toList = word.toList := by
    rw [← String.toList_inj, trim, String.toList_ofList]
  rw [hLeft]
  constructor
  · intro hTrim
    rcases exists_trimBlanks s.toList with
      ⟨before, after, hSplit, hBefore, hAfter⟩
    rw [hTrim] at hSplit
    exact ⟨before, after, hSplit, hBefore, hAfter⟩
  · rintro ⟨before, after, hSplit, hBefore, hAfter⟩
    rw [hSplit, trimBlanks_padded hBefore hAfter hWord]

/- Nothing is left of a text exactly if it is blank. -/
theorem isEmpty_trim_iff
    (s : String) :
    (trim s).isEmpty = true ↔ IsBlankText s := by
  have hEmpty :
      (trim s).isEmpty = true ↔ trimBlanks s.toList = [] := by
    rw [String.isEmpty_iff, ← String.toList_eq_nil_iff, trim,
      String.toList_ofList]
  rw [hEmpty]
  constructor
  · intro hNil
    rcases exists_trimBlanks s.toList with
      ⟨before, after, hSplit, hBefore, hAfter⟩
    rw [hNil, List.append_nil] at hSplit
    intro c hMem
    rw [hSplit, List.mem_append] at hMem
    exact hMem.elim (hBefore c) (hAfter c)
  · exact trimBlanks_of_isBlankRun

------------------------------------------------------------
-- Numerals
------------------------------------------------------------

/- The value of digits, the last of which counts ones. -/
def digitsDenote (digits : List Char) : Nat :=
  Nat.ofDigits 10
    (digits.map fun c => c.toNat - '0'.toNat).reverse

/-
  Decimal numerals and their values: one plus sign may stand
  in front of the digits, of which there is at least one.
-/
inductive IsNumeral : List Char → Nat → Prop where
| unsigned
    {digits : List Char}
    (hSome : digits ≠ [])
    (hDigits : ∀ c ∈ digits, c.isDigit = true) :
    IsNumeral digits (digitsDenote digits)
| signed
    {digits : List Char}
    (hSome : digits ≠ [])
    (hDigits : ∀ c ∈ digits, c.isDigit = true) :
    IsNumeral ('+' :: digits) (digitsDenote digits)

/- The text is a numeral for the number, blanks aside. -/
def Denotes
    (s : String)
    (n : Nat) : Prop :=
  ∃ before numeral after,
    s.toList = before ++ numeral ++ after ∧
    IsBlankRun before ∧ IsBlankRun after ∧
    IsNumeral numeral n

/- No digit is blank. -/
theorem isBlank_of_isDigit
    {c : Char}
    (hDigit : c.isDigit = true) :
    isBlank c = false := by
  have hBounds := Char.isDigit_iff_toNat.mp hDigit
  have hLow : '0'.toNat = 48 := rfl
  have hHigh : '9'.toNat = 57 := rfl
  simp only [isBlank, Bool.or_eq_false_iff,
    decide_eq_false_iff_not, List.contains_eq_mem,
    List.mem_cons, List.not_mem_nil, or_false]
  omega

/- So no character of a numeral is. -/
theorem IsNumeral.not_isBlank
    {numeral : List Char}
    {n : Nat}
    (hNumeral : IsNumeral numeral n) :
    ∀ c ∈ numeral, isBlank c = false := by
  cases hNumeral with
  | unsigned hSome hDigits =>
      exact fun c hMem => isBlank_of_isDigit (hDigits c hMem)
  | signed hSome hDigits =>
      intro c hMem
      rcases List.mem_cons.mp hMem with rfl | hDigit
      · decide
      · exact isBlank_of_isDigit (hDigits c hDigit)

/- A numeral is what is left of the text that denotes. -/
theorem denotes_iff
    {s : String}
    {n : Nat} :
    Denotes s n ↔ IsNumeral (trim s).toList n := by
  rw [trim, String.toList_ofList]
  constructor
  · rintro ⟨before, numeral, after, hText, hBefore, hAfter,
      hNumeral⟩
    rw [hText,
      trimBlanks_padded hBefore hAfter hNumeral.not_isBlank]
    exact hNumeral
  · intro hNumeral
    rcases exists_trimBlanks s.toList with
      ⟨before, after, hText, hBefore, hAfter⟩
    exact ⟨before, trimBlanks s.toList, after, hText, hBefore,
      hAfter, hNumeral⟩

/-
  Reading digits goes on from the number that was read so
  far, which counts as one more digit in front.
-/
theorem digitsValueFrom_eq_some_iff
    {cs : List Char}
    {k n : Nat} :
    digitsValueFrom k cs = some n ↔
      (∀ c ∈ cs, c.isDigit = true) ∧
        n =
          Nat.ofDigits 10
            ((cs.map fun c => c.toNat - '0'.toNat).reverse ++
              [k]) := by
  induction cs generalizing k with
  | nil =>
      simp only [digitsValueFrom, List.map_nil, List.reverse_nil,
        List.nil_append, Nat.ofDigits_singleton, Option.some.injEq,
        List.not_mem_nil, false_implies, implies_true, true_and]
      exact eq_comm
  | cons c rest ih =>
      by_cases hDigit : c.isDigit = true
      · have hShift :
            Nat.ofDigits 10
                ((rest.map fun c =>
                  c.toNat - '0'.toNat).reverse ++
                  [10 * k + (c.toNat - '0'.toNat)]) =
              Nat.ofDigits 10
                (((c :: rest).map fun c =>
                  c.toNat - '0'.toNat).reverse ++ [k]) := by
          rw [List.map_cons, List.reverse_cons, List.append_assoc,
            Nat.ofDigits_append, Nat.ofDigits_append]
          simp only [List.singleton_append, Nat.ofDigits_cons,
            Nat.ofDigits_nil, Nat.mul_zero, Nat.add_zero]
          rw [Nat.add_comm (10 * k)]
        simp only [digitsValueFrom, digitValue, hDigit, if_true,
          ih, hShift, List.forall_mem_cons, true_and]
      · simp [digitsValueFrom, digitValue, hDigit]

/- The digits of a numeral are read as their value. -/
theorem digitsValue_eq_some_iff
    {cs : List Char}
    {n : Nat} :
    digitsValue cs = some n ↔
      cs ≠ [] ∧ (∀ c ∈ cs, c.isDigit = true) ∧
        n = digitsDenote cs := by
  have hFrom :
      digitsValueFrom 0 cs = some n ↔
        (∀ c ∈ cs, c.isDigit = true) ∧ n = digitsDenote cs := by
    rw [digitsValueFrom_eq_some_iff, Nat.ofDigits_append,
      Nat.ofDigits_singleton, Nat.mul_zero, Nat.add_zero,
      digitsDenote]
  cases cs with
  | nil => simp [digitsValue]
  | cons c rest =>
      rw [digitsValue, hFrom]
      · simp
      · simp

/- A sign in front is passed over, if there is one. -/
theorem readUnsigned_of_digits
    {s : String}
    {digits : List Char}
    (hText :
      s.toList = '+' :: digits ∨
        s.toList = digits ∧ digits.head? ≠ some '+') :
    readUnsigned s =
      (digitsValue digits).filter (· < UInt64.size) := by
  unfold readUnsigned
  rcases hText with hPlus | ⟨hAll, hNoPlus⟩
  · rw [hPlus]
    cases hRead : digitsValue digits <;>
      simp [Option.filter, hRead]
  · rw [hAll]
    split
    · exact absurd rfl hNoPlus
    · cases hRead : digitsValue digits <;>
        simp [Option.filter, hRead]

/- After a plus sign there must be digits. -/
theorem isNumeral_signed_iff
    {digits : List Char}
    {n : Nat} :
    IsNumeral ('+' :: digits) n ↔
      digits ≠ [] ∧ (∀ c ∈ digits, c.isDigit = true) ∧
        n = digitsDenote digits := by
  constructor
  · intro hNumeral
    cases hNumeral with
    | signed hSome hDigits => exact ⟨hSome, hDigits, rfl⟩
    | unsigned hSome hDigits =>
        exact absurd (hDigits '+' List.mem_cons_self) (by decide)
  · rintro ⟨hSome, hDigits, rfl⟩
    exact .signed hSome hDigits

/- Without a plus sign all characters must be digits. -/
theorem isNumeral_unsigned_iff
    {digits : List Char}
    {n : Nat}
    (hNoPlus : digits.head? ≠ some '+') :
    IsNumeral digits n ↔
      digits ≠ [] ∧ (∀ c ∈ digits, c.isDigit = true) ∧
        n = digitsDenote digits := by
  constructor
  · intro hNumeral
    cases hNumeral with
    | signed hSome hDigits => exact absurd rfl hNoPlus
    | unsigned hSome hDigits => exact ⟨hSome, hDigits, rfl⟩
  · rintro ⟨hSome, hDigits, rfl⟩
    exact .unsigned hSome hDigits

/- What is read are the numerals of numbers below 2 ^ 64. -/
theorem readUnsigned_eq_some_iff
    {s : String}
    {n : Nat} :
    readUnsigned s = some n ↔
      IsNumeral s.toList n ∧ n < UInt64.size := by
  by_cases hHead : s.toList.head? = some '+'
  · rcases List.head?_eq_some_iff.mp hHead with ⟨digits, hText⟩
    rw [readUnsigned_of_digits (.inl hText), hText,
      Option.filter_eq_some_iff, digitsValue_eq_some_iff,
      decide_eq_true_eq, isNumeral_signed_iff]
  · rw [readUnsigned_of_digits (.inr ⟨rfl, hHead⟩),
      Option.filter_eq_some_iff, digitsValue_eq_some_iff,
      decide_eq_true_eq, isNumeral_unsigned_iff hHead]

/- A limit is read where its text denotes a number that fits. -/
theorem readUnsigned_trim_eq_some_iff
    {s : String}
    {n : Nat} :
    readUnsigned (trim s) = some n ↔
      Denotes s n ∧ n < UInt64.size := by
  rw [readUnsigned_eq_some_iff, denotes_iff]

end Text

------------------------------------------------------------
-- Layers
------------------------------------------------------------

namespace Environment

/-
  The value of an option: what its own variable says, if that
  is set, else what is below.
-/
inductive Overrides
    {α : Type}
    (Reads : String → α → Prop)
    (below : α) : Option String → α → Prop where
| unset :
    Overrides Reads below none below
| set
    {text : String}
    {a : α}
    (hReads : Reads text a) :
    Overrides Reads below (some text) a

/- A limit is a number that fits into 64 bits. -/
def ReadsLimit
    (text : String)
    (limit : Nat) : Prop :=
  Text.Denotes text limit ∧ limit < UInt64.size

/- The words that turn a switch off: nothing, zero, false. -/
inductive IsOffWord : String → Prop where
| nothing : IsOffWord ""
| zero : IsOffWord "0"
| lower : IsOffWord "false"
| upper : IsOffWord "FALSE"
| capital : IsOffWord "False"

/- The text is one of these words, blanks aside. -/
def SwitchesOff (text : String) : Prop :=
  ∃ before word after,
    text.toList = before ++ word.toList ++ after ∧
    Text.IsBlankRun before ∧ Text.IsBlankRun after ∧
    IsOffWord word

/- The switch is on unless the text turns it off. -/
def ReadsSwitch
    (text : String)
    (on : Bool) : Prop :=
  on = false ↔ SwitchesOff text

/- No character of the words is blank. -/
theorem IsOffWord.not_isBlank
    {word : String}
    (hWord : IsOffWord word) :
    ∀ c ∈ word.toList, Text.isBlank c = false := by
  cases hWord <;> simp [Text.isBlank]

/- They are those that the switch is compared with. -/
theorem isOffWord_iff
    {word : String} :
    IsOffWord word ↔
      word ∈ ["", "0", "false", "FALSE", "False"] := by
  constructor
  · intro hWord
    cases hWord <;> simp
  · intro hMem
    simp only [List.mem_cons, List.not_mem_nil, or_false] at hMem
    rcases hMem with rfl | rfl | rfl | rfl | rfl
    · exact .nothing
    · exact .zero
    · exact .lower
    · exact .upper
    · exact .capital

/- A switch is off exactly where its text turns it off. -/
theorem isOn_eq_false_iff
    {text : String} :
    isOn text = false ↔ SwitchesOff text := by
  have hOff :
      isOn text = false ↔ IsOffWord (Text.trim text) := by
    rw [isOn, Bool.not_eq_false', List.contains_iff_mem,
      isOffWord_iff]
  rw [hOff]
  constructor
  · intro hWord
    rcases (Text.trim_eq_iff hWord.not_isBlank).mp rfl with
      ⟨before, after, hSplit, hBefore, hAfter⟩
    exact ⟨before, _, after, hSplit, hBefore, hAfter, hWord⟩
  · rintro ⟨before, word, after, hSplit, hBefore, hAfter, hWord⟩
    have hTrim : Text.trim text = word :=
      (Text.trim_eq_iff hWord.not_isBlank).mpr
        ⟨before, after, hSplit, hBefore, hAfter⟩
    rw [hTrim]
    exact hWord

/- So it is read as the text says. -/
theorem isOn_eq_iff
    {text : String}
    {on : Bool} :
    isOn text = on ↔ ReadsSwitch text on := by
  rw [ReadsSwitch, ← isOn_eq_false_iff]
  cases on <;> simp

variable (env : Environment)

/-
  The options below the single variables: those that JSON
  gives, and the defaults if there is no JSON.
-/
inductive HasBase : Options → Prop where
| json
    {source : String}
    {base : Options}
    (hSet : env optionsName = some source)
    (hText : ¬ Text.IsBlankText source)
    (hRead : Options.ofJson source = .ok base) :
    HasBase base
| default
    (hNone : ∀ source, env optionsName = some source →
      Text.IsBlankText source) :
    HasBase .default

/- The JSON variable holds something that is refused. -/
def RefusesJson : Prop :=
  ∃ source e,
    env optionsName = some source ∧
    ¬ Text.IsBlankText source ∧
    Options.ofJson source = .error e

/- The variable of the limit does not hold a limit. -/
def RefusesLimit : Prop :=
  ∃ text,
    env displayLimitName = some text ∧
    ∀ limit, ¬ ReadsLimit text limit

end Environment

namespace Options

open Environment (Overrides ReadsSwitch ReadsLimit isOn)

variable {env : Environment}

/- JSON is read if it is there and not blank. -/
theorem ofVariable_eq_ok_iff
    {base : Options} :
    ofVariable (env Environment.optionsName) = .ok base ↔
      env.HasBase base := by
  constructor
  · intro hRead
    cases hSet : env Environment.optionsName with
    | none =>
        rw [hSet] at hRead
        cases hRead
        exact .default (by simp [hSet])
    | some source =>
        rw [hSet, ofVariable] at hRead
        split at hRead
        · rename_i hEmpty
          cases hRead
          apply Environment.HasBase.default
          intro own hOwn
          cases hSet.symm.trans hOwn
          exact (Text.isEmpty_trim_iff source).mp hEmpty
        · rename_i hText
          rw [Text.isEmpty_trim_iff] at hText
          exact .json hSet hText hRead
  · intro hBase
    cases hBase with
    | json hSet hText hRead =>
        rw [← Text.isEmpty_trim_iff] at hText
        rw [hSet, ofVariable, if_neg hText, hRead]
    | default hNone =>
        cases hSet : env Environment.optionsName with
        | none => rfl
        | some source =>
            have hBlank := hNone source hSet
            rw [← Text.isEmpty_trim_iff] at hBlank
            rw [ofVariable, if_pos hBlank]

/- It fails exactly when the JSON is refused. -/
theorem ofVariable_eq_error_iff :
    (∃ e, ofVariable (env Environment.optionsName) = .error e) ↔
      env.RefusesJson := by
  constructor
  · rintro ⟨e, hFails⟩
    cases hSet : env Environment.optionsName with
    | none => simp [hSet, ofVariable] at hFails
    | some source =>
        rw [hSet, ofVariable] at hFails
        split at hFails
        · cases hFails
        · rename_i hText
          rw [Text.isEmpty_trim_iff] at hText
          exact ⟨source, e, hSet, hText, hFails⟩
  · rintro ⟨source, e, hSet, hText, hFails⟩
    rw [← Text.isEmpty_trim_iff] at hText
    exact ⟨e, by rw [hSet, ofVariable, if_neg hText, hFails]⟩

/- The limit that counts is that of the variable, if set. -/
theorem limitOfVariable_eq_ok_iff
    {text? : Option String}
    {below limit : Nat} :
    (∃ own?, limitOfVariable text? = .ok own? ∧
      own?.getD below = limit) ↔
      Overrides ReadsLimit below text? limit := by
  constructor
  · rintro ⟨own?, hRead, rfl⟩
    cases text? with
    | none =>
        cases hRead
        exact .unset
    | some text =>
        rw [limitOfVariable] at hRead
        split at hRead
        · rename_i own hOwn
          cases hRead
          exact .set (Text.readUnsigned_trim_eq_some_iff.mp hOwn)
        · cases hRead
  · intro hOverrides
    cases hOverrides with
    | unset => exact ⟨none, rfl, rfl⟩
    | set hReads =>
        have hOwn := Text.readUnsigned_trim_eq_some_iff.mpr hReads
        exact ⟨some limit, by rw [limitOfVariable, hOwn], rfl⟩

/- It fails exactly when the variable holds no limit. -/
theorem limitOfVariable_eq_error_iff :
    (∃ e, limitOfVariable (env Environment.displayLimitName) =
      .error e) ↔ env.RefusesLimit := by
  constructor
  · rintro ⟨e, hFails⟩
    cases hSet : env Environment.displayLimitName with
    | none => simp [hSet, limitOfVariable] at hFails
    | some text =>
        refine ⟨text, hSet, ?_⟩
        intro limit hReads
        have hOwn := Text.readUnsigned_trim_eq_some_iff.mpr hReads
        simp [hSet, limitOfVariable, hOwn] at hFails
  · rintro ⟨text, hSet, hNone⟩
    cases hRead : Text.readUnsigned (Text.trim text) with
    | none => exact ⟨_, by rw [hSet, limitOfVariable, hRead]⟩
    | some limit =>
        have hReads := Text.readUnsigned_trim_eq_some_iff.mp hRead
        exact absurd hReads (hNone limit)

/- The switch that counts is that of the variable, if set. -/
theorem getD_map_isOn_iff
    {text? : Option String}
    {below on : Bool} :
    (text?.map isOn).getD below = on ↔
      Overrides ReadsSwitch below text? on := by
  constructor
  · rintro rfl
    cases text? with
    | none => exact .unset
    | some text =>
        rw [Option.map_some, Option.getD_some]
        exact .set (Environment.isOn_eq_iff.mp (Eq.refl _))
  · intro hOverrides
    cases hOverrides with
    | unset => rfl
    | set hReads =>
        rw [Option.map_some, Option.getD_some]
        exact Environment.isOn_eq_iff.mpr hReads

/- Variables are read one after the other. -/
theorem ofEnvironment_of_base
    {base : Options}
    (hBase : ofVariable (env Environment.optionsName) = .ok base) :
    ofEnvironment env =
      (limitOfVariable (env Environment.displayLimitName)).map
        fun limit =>
          { traceArguments :=
              ((env Environment.traceArgumentsName).map isOn).getD
                base.traceArguments
            displayLimit := limit.getD base.displayLimit } := by
  simp only [ofEnvironment, hBase, bind, Except.bind]
  cases limitOfVariable (env Environment.displayLimitName) <;> rfl

/- Reading succeeds with each option from its own layer. -/
theorem ofEnvironment_eq_ok_iff
    {options : Options} :
    ofEnvironment env = .ok options ↔
      ∃ base,
        env.HasBase base ∧
        Overrides ReadsSwitch base.traceArguments
          (env Environment.traceArgumentsName)
          options.traceArguments ∧
        Overrides ReadsLimit base.displayLimit
          (env Environment.displayLimitName)
          options.displayLimit := by
  simp only [← ofVariable_eq_ok_iff, ← getD_map_isOn_iff,
    ← limitOfVariable_eq_ok_iff]
  constructor
  · intro hRead
    cases hBase : ofVariable (env Environment.optionsName) with
    | error e =>
        simp [ofEnvironment, hBase, bind, Except.bind] at hRead
    | ok base =>
        rw [ofEnvironment_of_base hBase] at hRead
        cases hLimit :
            limitOfVariable (env Environment.displayLimitName) with
        | error e => simp [hLimit, Except.map] at hRead
        | ok own? =>
            rw [hLimit] at hRead
            cases hRead
            exact ⟨base, rfl, rfl, own?, rfl, rfl⟩
  · rintro ⟨base, hBase, hTrace, own?, hLimit, hOwn⟩
    rw [ofEnvironment_of_base hBase, hLimit, Except.map, hTrace,
      hOwn]

/- Reading fails with the first variable that is refused. -/
theorem ofEnvironment_eq_error_iff :
    (∃ e, ofEnvironment env = .error e) ↔
      env.RefusesJson ∨ env.RefusesLimit := by
  rw [← ofVariable_eq_error_iff, ← limitOfVariable_eq_error_iff]
  cases hBase : ofVariable (env Environment.optionsName) with
  | error e =>
      simp [ofEnvironment, hBase, bind, Except.bind]
  | ok base =>
      rw [ofEnvironment_of_base hBase]
      cases limitOfVariable (env Environment.displayLimitName) <;>
        simp [Except.map]

/-
  Options are layered. Reading the environment fails exactly
  when there is JSON that is refused, blanks not counting as
  JSON, or when the variable of the limit is set and does not
  hold a numeral of a number below 2 ^ 64 between blanks.
  Otherwise each option is that of its own variable if this
  is set, else that of the JSON, else the default. The
  variable of one option has no influence on the other one,
  and that of the switch has none on whether reading fails.

  When reading fails, all variables are left out of account:
  the options are the defaults, and one warning is logged. It
  is the only event.
-/
theorem ofEnvironment_is_layered
    (env : Environment) :
    ((∃ e, ofEnvironment env = .error e) ↔
      env.RefusesJson ∨ env.RefusesLimit) ∧
    (∀ options, ofEnvironment env = .ok options ↔
      ∃ base,
        env.HasBase base ∧
        Overrides ReadsSwitch base.traceArguments
          (env Environment.traceArgumentsName)
          options.traceArguments ∧
        Overrides ReadsLimit base.displayLimit
          (env Environment.displayLimitName)
          options.displayLimit) ∧
    (∀ env' : Environment,
      (∀ name, name ≠ Environment.traceArgumentsName →
        env' name = env name) →
      ∀ options, ofEnvironment env = .ok options →
        ∃ on, ofEnvironment env' =
          .ok { options with traceArguments := on }) ∧
    (∀ env' : Environment,
      (∀ name, name ≠ Environment.displayLimitName →
        env' name = env name) →
      ∀ options options',
        ofEnvironment env = .ok options →
        ofEnvironment env' = .ok options' →
          options'.traceArguments = options.traceArguments) ∧
    (∀ options, ofEnvironment env = .ok options →
      orDefault env = (options, [])) ∧
    ∀ e, ofEnvironment env = .error e →
      ∃ event,
        orDefault env = (⟨false, 16⟩, [event]) ∧
        event.level = .warn ∧
        event.message =
          "ignoring bridge options from environment: " ++
            e.message := by
  refine ⟨ofEnvironment_eq_error_iff,
    fun options => ofEnvironment_eq_ok_iff, ?switch, ?limit, ?read,
    ?spoiled⟩
  case switch =>
    intro env' hSame options hRead
    rcases ofEnvironment_eq_ok_iff.mp hRead with
      ⟨base, hBase, hSwitch, hLimit⟩
    rw [← ofVariable_eq_ok_iff, ← hSame _ (by decide)] at hBase
    rw [← hSame _ (by decide)] at hLimit
    refine ⟨((env' Environment.traceArgumentsName).map isOn).getD
      base.traceArguments, ?_⟩
    apply ofEnvironment_eq_ok_iff.mpr
    exact ⟨base, ofVariable_eq_ok_iff.mp hBase,
      getD_map_isOn_iff.mp rfl, hLimit⟩
  case limit =>
    intro env' hSame options options' hRead hRead'
    rcases ofEnvironment_eq_ok_iff.mp hRead with
      ⟨base, hBase, hSwitch, hLimit⟩
    rcases ofEnvironment_eq_ok_iff.mp hRead' with
      ⟨base', hBase', hSwitch', hLimit'⟩
    rw [← ofVariable_eq_ok_iff] at hBase hBase'
    rw [hSame _ (by decide), hBase] at hBase'
    cases hBase'
    rw [← getD_map_isOn_iff] at hSwitch hSwitch'
    rw [← hSwitch', hSame _ (by decide), hSwitch]
  case read =>
    intro options hRead
    rw [orDefault, hRead]
  case spoiled =>
    intro e hFails
    refine ⟨.optionsIgnored e.message, ?_, rfl, rfl⟩
    rw [orDefault, hFails]
    rfl

/-
  The greatest limit is taken, with a sign and a zero in
  front. The next number is refused, and a blank text too;
  then the switch, which is set as well, does not count.
-/
example :
    let env (limit : String) : Environment := fun name =>
      if name = "FERROBRIDGE_DISPLAY_LIMIT" then
        some limit
      else if name = "FERROBRIDGE_TRACE_ARGS" then
        some "yes"
      else
        none
    orDefault (env "\t+018446744073709551615 ") =
        (⟨true, 18446744073709551615⟩, []) ∧
      (orDefault (env "18446744073709551616")).1 = ⟨false, 16⟩ ∧
      (orDefault (env " ")).1 = ⟨false, 16⟩ :=
  ⟨rfl, rfl, rfl⟩

end Options

end Interop
