import Mathlib.Data.List.TakeWhile
import Modbus.Proofs.Unit.Numeral

/-!
# The grammar of unit identifiers

A unit identifier is written as a numeral of base ten, or as `0x` or `0X` with a numeral of base
sixteen behind it, of a number up to 255 (`UnitId.Denotes`); blanks around it do not matter
(`Text.IsCore`). A text is read if and only if it is of this form, and what is reported of any other
text is told by the first character that cannot be read (`UnitId.Refused`). This is
`UnitId.parses_by_grammar`.
-/

namespace Modbus

namespace Text

/-- A text is what another one holds between the blanks at both of its ends. -/
structure IsCore (cs core : List Char) : Prop where
  blanks : ∃ front behind, cs = front ++ core ++ behind ∧ (∀ c ∈ front, isBlank c = true) ∧
    ∀ c ∈ behind, isBlank c = true
  head : ∀ c, core.head? = some c → isBlank c = false
  last : ∀ c, core.getLast? = some c → isBlank c = false

variable {cs core : List Char}

/-- Blanks in front of a text that does not begin with one are dropped, and no more. -/
theorem dropWhile_append_core {front : List Char} (hfront : ∀ c ∈ front, isBlank c = true)
    (hhead : ∀ c, core.head? = some c → isBlank c = false) :
    (front ++ core).dropWhile isBlank = core := by
  rw [List.dropWhile_append_of_pos hfront]
  cases core with
  | nil => rfl
  | cons c core => simp [hhead c rfl]

/-- What is left begins with no blank. -/
theorem isBlank_head_dropWhile {c : Char} (h : (cs.dropWhile isBlank).head? = some c) :
    isBlank c = false := by
  have hhead := List.head?_dropWhile_not isBlank cs
  rw [h] at hhead
  exact hhead

/-- What is dropped are blanks. -/
theorem exists_append_dropWhile (cs : List Char) :
    ∃ front, cs = front ++ cs.dropWhile isBlank ∧ ∀ c ∈ front, isBlank c = true :=
  ⟨cs.takeWhile isBlank, List.takeWhile_append_dropWhile.symm, fun _ => List.mem_takeWhile_imp⟩

/-- What is left between the blanks of a text is its core. -/
theorem isCore_trim (cs : List Char) : IsCore cs (trim cs) := by
  obtain ⟨front, hcs, hfront⟩ := exists_append_dropWhile cs
  obtain ⟨behind, hrest, hbehind⟩ := exists_append_dropWhile (cs.dropWhile isBlank).reverse
  rw [List.reverse_eq_iff, List.reverse_append] at hrest
  change cs.dropWhile isBlank = trim cs ++ behind.reverse at hrest
  refine ⟨⟨front, behind.reverse, ?_, hfront, by simpa using hbehind⟩, ?_, ?_⟩
  · rw [List.append_assoc, ← hrest]
    exact hcs
  · intro c hc
    have hhead : (cs.dropWhile isBlank).head? = some c := by
      rw [hrest, List.head?_append, hc]
      rfl
    exact isBlank_head_dropWhile hhead
  · intro c hc
    rw [trim, List.getLast?_reverse] at hc
    exact isBlank_head_dropWhile hc

/-- A text has one core only. -/
theorem IsCore.trim_eq (h : IsCore cs core) : trim cs = core := by
  obtain ⟨⟨front, behind, rfl, hfront, hbehind⟩, hhead, hlast⟩ := h
  have hbehind' : ∀ c ∈ behind.reverse, isBlank c = true := by simpa using hbehind
  have hlast' : ∀ c, core.reverse.head? = some c → isBlank c = false := by simpa using hlast
  cases hcore : core with
  | nil =>
    subst hcore
    have hall : (front ++ [] ++ behind).dropWhile isBlank = [] := by
      rw [List.dropWhile_eq_nil_iff]
      simpa using fun c hc => hc.elim (hfront c) (hbehind c)
    rw [trim, hall]
    rfl
  | cons first rest =>
    have hfirst : ∀ c, (core ++ behind).head? = some c → isBlank c = false := by
      intro c hc
      refine hhead c ?_
      rw [hcore] at hc ⊢
      exact hc
    rw [← hcore, trim, List.append_assoc, dropWhile_append_core hfront hfirst,
      List.reverse_append, dropWhile_append_core hbehind' hlast', List.reverse_reverse]

end Text

namespace UnitId

/-- A text begins with the mark of base sixteen. -/
def IsMarked (cs : List Char) : Prop :=
  ∃ x digits, (x = 'x' ∨ x = 'X') ∧ cs = '0' :: x :: digits

/-- A text without blanks around it denotes a number. -/
inductive Denotes : List Char → Nat → Prop where
  | decimal {cs : List Char} {n : Nat} (h : IsNumeral 10 cs n) : Denotes cs n
  | hexadecimal {x : Char} {cs : List Char} {n : Nat} (hx : x = 'x' ∨ x = 'X')
    (h : IsNumeral 16 cs n) : Denotes ('0' :: x :: cs) n

/-- A text without blanks around it denotes no number up to 255, and the error says why. -/
inductive Refused : List Char → UnitIdError → Prop where
  | decimal {cs : List Char} {e : UnitIdError} (hcs : ¬ IsMarked cs) (h : NumeralFault 10 cs e) :
    Refused cs e
  | hexadecimal {x : Char} {cs : List Char} {e : UnitIdError} (hx : x = 'x' ∨ x = 'X')
    (h : NumeralFault 16 cs e) : Refused ('0' :: x :: cs) e

variable {cs core : List Char} {n : Nat} {unit : UnitId} {e : UnitIdError}

/-- A numeral of base ten has no mark. -/
theorem IsMarked.not_isNumeral (h : IsMarked cs) (hn : n ≤ 255) : ¬ IsNumeral 10 cs n := by
  obtain ⟨x, digits, hx, rfl⟩ := h
  intro hnumeral
  have hread : readNumber 10 ('0' :: x :: digits) = .ok n :=
    (readNumber_eq_ok_iff (by decide) (by decide)).2 ⟨hnumeral, hn⟩
  have hfails : readNumber 10 ('0' :: x :: digits) = .error .invalidDigit := by
    rcases hx with rfl | rfl <;> rfl
  rw [hfails] at hread
  cases hread

/-- A number that fits into a byte is an identifier as it is. -/
theorem ofNat_map_eq_ok_iff {base : Nat} (hpos : 0 < base) (hbase : base ≤ 16) :
    UInt8.ofNat <$> readNumber base cs = .ok unit ↔ IsNumeral base cs unit.toNat := by
  have hunit : unit.toNat ≤ 255 := Nat.le_of_lt_succ unit.toNat_lt
  rw [← and_iff_left (a := IsNumeral base cs unit.toNat) hunit,
    ← readNumber_eq_ok_iff hpos hbase]
  cases hread : readNumber base cs with
  | error e => exact ⟨nofun, nofun⟩
  | ok n =>
    have hn : n ≤ 255 := ((readNumber_eq_ok_iff hpos hbase).1 hread).2
    show Except.ok (UInt8.ofNat n) = Except.ok unit ↔ _
    rw [Except.ok.injEq, Except.ok.injEq, ← UInt8.toNat_inj, UInt8.toNat_ofNat']
    omega

/-- What is reported of a text that is no number is what is wrong with it as a numeral. -/
theorem ofNat_map_eq_error_iff {base : Nat} (hpos : 0 < base) (hbase : base ≤ 16) :
    UInt8.ofNat <$> readNumber base cs = .error e ↔ NumeralFault base cs e := by
  rw [← readNumber_eq_error_iff hpos hbase]
  cases readNumber base cs with
  | error e' =>
    show Except.error e' = Except.error e ↔ _
    rw [Except.error.injEq, Except.error.injEq]
  | ok n => exact ⟨nofun, nofun⟩

/-- A text is read behind its mark, or from its beginning if it has none. -/
theorem parseChars_cases (h : Text.trim cs = core) :
    (∃ x digits, (x = 'x' ∨ x = 'X') ∧ core = '0' :: x :: digits ∧
      parseChars cs = UInt8.ofNat <$> readNumber 16 digits) ∨
    ¬ IsMarked core ∧ parseChars cs = UInt8.ofNat <$> readNumber 10 core := by
  rw [parseChars, h]
  by_cases hmarked : IsMarked core
  · obtain ⟨x, digits, hx, rfl⟩ := hmarked
    refine .inl ⟨x, digits, hx, rfl, ?_⟩
    rcases hx with rfl | rfl <;> rfl
  · refine .inr ⟨hmarked, ?_⟩
    split
    · next digits => exact absurd ⟨'x', digits, .inl rfl, rfl⟩ hmarked
    · next digits => exact absurd ⟨'X', digits, .inr rfl, rfl⟩ hmarked
    · rfl

/-- A text is read as the unit that its core denotes. -/
theorem parseChars_eq_ok_iff (h : Text.trim cs = core) :
    parseChars cs = .ok unit ↔ Denotes core unit.toNat := by
  have hunit : unit.toNat ≤ 255 := Nat.le_of_lt_succ unit.toNat_lt
  rcases parseChars_cases h with ⟨x, digits, hx, rfl, hparse⟩ | ⟨hmarked, hparse⟩
  · rw [hparse, ofNat_map_eq_ok_iff (by decide) (by decide)]
    refine ⟨.hexadecimal hx, fun hdenotes => ?_⟩
    cases hdenotes with
    | decimal h => exact absurd h (IsMarked.not_isNumeral ⟨x, digits, hx, rfl⟩ hunit)
    | hexadecimal _ h => exact h
  · rw [hparse, ofNat_map_eq_ok_iff (by decide) (by decide)]
    refine ⟨.decimal, fun hdenotes => ?_⟩
    cases hdenotes with
    | decimal h => exact h
    | @hexadecimal x digits _ hx => exact absurd ⟨x, digits, hx, rfl⟩ hmarked

/-- It is refused for the reason for which its core is refused. -/
theorem parseChars_eq_error_iff (h : Text.trim cs = core) :
    parseChars cs = .error e ↔ Refused core e := by
  rcases parseChars_cases h with ⟨x, digits, hx, rfl, hparse⟩ | ⟨hmarked, hparse⟩
  · rw [hparse, ofNat_map_eq_error_iff (by decide) (by decide)]
    refine ⟨.hexadecimal hx, fun hrefused => ?_⟩
    cases hrefused with
    | decimal hcs => exact absurd ⟨x, digits, hx, rfl⟩ hcs
    | hexadecimal _ h => exact h
  · rw [hparse, ofNat_map_eq_error_iff (by decide) (by decide)]
    refine ⟨.decimal hmarked, fun hrefused => ?_⟩
    cases hrefused with
    | decimal _ h => exact h
    | @hexadecimal x digits _ hx => exact absurd ⟨x, digits, hx, rfl⟩ hmarked

/-- **The parser accepts exactly the grammar.** A text is read as a unit if and only if it denotes
the number of the unit, apart from blanks around it, and otherwise the error is the one for which it
is refused. -/
theorem parses_by_grammar (s : String) :
    (∀ unit, parse s = .ok unit ↔
      ∃ core, Text.IsCore s.toList core ∧ Denotes core unit.toNat) ∧
    ∀ e, parse s = .error e ↔ ∃ core, Text.IsCore s.toList core ∧ Refused core e := by
  refine ⟨fun unit => ?_, fun e => ?_⟩
  · refine ⟨fun h => ?_, ?_⟩
    · exact ⟨_, Text.isCore_trim s.toList, (parseChars_eq_ok_iff rfl).1 h⟩
    · rintro ⟨core, hcore, hdenotes⟩
      exact (parseChars_eq_ok_iff hcore.trim_eq).2 hdenotes
  · refine ⟨fun h => ?_, ?_⟩
    · exact ⟨_, Text.isCore_trim s.toList, (parseChars_eq_error_iff rfl).1 h⟩
    · rintro ⟨core, hcore, hrefused⟩
      exact (parseChars_eq_error_iff hcore.trim_eq).2 hrefused

/-- Of a character that is no digit and a number that is too large, the first one is reported. -/
example : parse " 0X+000fF\n" = .ok 255 ∧ parse "25+6" = .error .invalidDigit ∧
    parse "256+" = .error .overflow ∧ parse "0x" = .error .empty := by decide

end UnitId

end Modbus
