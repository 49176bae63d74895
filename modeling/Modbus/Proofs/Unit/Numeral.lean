import Mathlib.Data.List.Forall2
import Mathlib.Data.List.Induction
import Mathlib.Data.Nat.Digits.Defs
import Modbus.Unit.Parser

/-!
# Numerals

A numeral is a row of digits, with a plus sign in front of it or without (`IsNumeral`). The digits
of a base up to sixteen are those of `Nat.digitChar`, and the letters among them may be capitals
(`IsDigit`). The number that a row of digits spells is the one that `Nat.ofDigits` makes of their
values, the last digit being the least significant (`Spells`).

A numeral is read if and only if its number fits into a byte (`readNumber_eq_ok_iff`), and what is
reported of any other text is told by the first character that cannot be read (`NumeralFault`,
`readNumber_eq_error_iff`). Both are proved by induction from the end of the text: one more digit
multiplies the number by the base and adds its value, in what is spelled (`spells_concat`) and in
what is read (`readDigits_concat_eq_ok_iff`), and the number never gets smaller.
-/

namespace Modbus.UnitId

/-- A character is the digit of a value. -/
def IsDigit (base : Nat) (c : Char) (d : Nat) : Prop :=
  d < base ∧ (c = d.digitChar ∨ c = d.digitChar.toUpper)

/-- Characters are digits, and spell a number: the last one counts least. -/
def Spells (base : Nat) (cs : List Char) (n : Nat) : Prop :=
  ∃ ds, List.Forall₂ (IsDigit base) cs.reverse ds ∧ n = Nat.ofDigits base ds

/-- A text without the plus sign in front of it, if it has one. -/
def unsigned : List Char → List Char
  | '+' :: cs => cs
  | cs => cs

/-- A text is a numeral of a number: digits, at least one, behind a plus sign or without. -/
structure IsNumeral (base : Nat) (cs : List Char) (n : Nat) : Prop where
  nonempty : unsigned cs ≠ []
  spells : Spells base (unsigned cs) n

/-- What is wrong with a text that is no numeral of a number up to 255. The first character that
cannot be read decides. -/
inductive NumeralFault (base : Nat) : List Char → UnitIdError → Prop where
  /-- There is nothing. -/
  | empty : NumeralFault base [] .empty
  /-- There is a sign and nothing else. -/
  | loneSign : NumeralFault base ['+'] .invalidDigit
  /-- The digits in front of a character are fine, and the character is none. -/
  | noDigit {cs front behind : List Char} {c : Char} {n : Nat}
    (hcs : unsigned cs = front ++ c :: behind) (hfront : Spells base front n) (hn : n ≤ 255)
    (hc : ∀ d, ¬ IsDigit base c d) : NumeralFault base cs .invalidDigit
  /-- The digits in front of a digit are fine, and with it the number is too large. -/
  | tooLarge {cs front behind : List Char} {c : Char} {n m : Nat}
    (hcs : unsigned cs = front ++ c :: behind) (hfront : Spells base front n) (hn : n ≤ 255)
    (hwith : Spells base (front ++ [c]) m) (hm : 255 < m) : NumeralFault base cs .overflow

variable {base n m d : Nat} {c : Char} {cs : List Char} {e : UnitIdError}

/-! ## Digits -/

/-- The digits up to nine are one behind the other. -/
theorem digitChar_eq : ∀ d < 10, d.digitChar = Char.ofNat (48 + d) := by decide

/-- The other digits are letters, small or capital ones, one behind the other. -/
theorem digitChar_add_ten : ∀ d < 6, (d + 10).digitChar = Char.ofNat (97 + d) ∧
    (d + 10).digitChar.toUpper = Char.ofNat (65 + d) := by decide

/-- The value of a digit is read back, whether it is a small letter or a capital one. -/
theorem digitValue?_digitChar : ∀ d < 16,
    digitValue? 16 d.digitChar = some d ∧ digitValue? 16 d.digitChar.toUpper = some d := by decide

/-- The base does not matter to the value of a digit. -/
theorem digitValue?_of_le (hbase : base ≤ 16) :
    digitValue? base c = some d ↔ d < base ∧ digitValue? 16 c = some d := by
  simp only [digitValue?, Option.filter_eq_some_iff, decide_eq_true_eq]
  refine ⟨fun ⟨hvalue, hd⟩ => ⟨hd, hvalue, Nat.lt_of_lt_of_le hd hbase⟩, ?_⟩
  exact fun ⟨hd, hvalue, _⟩ => ⟨hvalue, hd⟩

/-- A character that has a value is the digit of this value. -/
theorem digitValue?_inv (h : digitValue? 16 c = some d) :
    c = d.digitChar ∨ c = d.digitChar.toUpper := by
  have hc : Char.ofNat c.toNat = c := Char.ofNat_toNat c
  simp only [digitValue?, Option.filter_eq_some_iff, decide_eq_true_eq] at h
  obtain ⟨hvalue, hd⟩ := h
  split at hvalue
  · next hrange =>
    change 48 ≤ c.toNat ∧ c.toNat ≤ 57 at hrange
    change some (c.toNat - 48) = some d at hvalue
    cases hvalue
    rw [digitChar_eq _ (by omega), Nat.add_sub_cancel' hrange.1, hc]
    exact .inl rfl
  · split at hvalue
    · next hrange =>
      change 97 ≤ c.toNat ∧ c.toNat ≤ 122 at hrange
      change some (c.toNat - 97 + 10) = some d at hvalue
      cases hvalue
      rw [(digitChar_add_ten _ (by omega)).1, Nat.add_sub_cancel' hrange.1, hc]
      exact .inl rfl
    · split at hvalue
      · next hrange =>
        change 65 ≤ c.toNat ∧ c.toNat ≤ 90 at hrange
        change some (c.toNat - 65 + 10) = some d at hvalue
        cases hvalue
        rw [(digitChar_add_ten _ (by omega)).2, Nat.add_sub_cancel' hrange.1, hc]
        exact .inr rfl
      · cases hvalue

/-- A character has a value if and only if it is the digit of this value. -/
theorem digitValue?_eq_some_iff (hbase : base ≤ 16) :
    digitValue? base c = some d ↔ IsDigit base c d := by
  rw [digitValue?_of_le hbase]
  refine and_congr_right fun hd => ⟨digitValue?_inv, ?_⟩
  obtain ⟨hsmall, hcapital⟩ := digitValue?_digitChar d (Nat.lt_of_lt_of_le hd hbase)
  rintro (rfl | rfl)
  · exact hsmall
  · exact hcapital

/-- A character has no value if and only if it is not a digit. -/
theorem digitValue?_eq_none_iff (hbase : base ≤ 16) :
    digitValue? base c = none ↔ ∀ d, ¬ IsDigit base c d := by
  simp only [← digitValue?_eq_some_iff hbase, Option.eq_none_iff_forall_ne_some, ne_eq]

/-! ## Rows of digits -/

/-- No digits at all spell zero. -/
theorem spells_nil : Spells base [] n ↔ n = 0 := by
  simp [Spells, Nat.ofDigits_nil]

/-- A digit behind others multiplies their number by the base and adds its value. -/
theorem spells_concat : Spells base (cs ++ [c]) m ↔
    ∃ n d, Spells base cs n ∧ IsDigit base c d ∧ m = n * base + d := by
  simp only [Spells, List.reverse_append, List.reverse_cons, List.reverse_nil, List.nil_append,
    List.singleton_append, List.forall₂_cons_left_iff]
  refine ⟨?_, ?_⟩
  · rintro ⟨ds, ⟨d, ds', hd, hds, rfl⟩, rfl⟩
    refine ⟨_, d, ⟨ds', hds, rfl⟩, hd, ?_⟩
    rw [Nat.ofDigits_cons, Nat.mul_comm, Nat.add_comm]
  · rintro ⟨n, d, ⟨ds, hds, rfl⟩, hd, rfl⟩
    refine ⟨d :: ds, ⟨d, ds, hd, hds, rfl⟩, ?_⟩
    rw [Nat.ofDigits_cons, Nat.mul_comm, Nat.add_comm]

/-- A character is the digit of one value only. -/
theorem IsDigit.unique {d' : Nat} (hbase : base ≤ 16) (h : IsDigit base c d)
    (h' : IsDigit base c d') : d = d' := by
  rw [← digitValue?_eq_some_iff hbase] at h h'
  exact Option.some.inj (h.symm.trans h')

/-- A row of digits spells one number only. -/
theorem Spells.unique (hbase : base ≤ 16) (h : Spells base cs n) (h' : Spells base cs m) :
    n = m := by
  induction cs using List.reverseRecOn generalizing n m with
  | nil => rw [spells_nil.1 h, spells_nil.1 h']
  | append_singleton cs c ih =>
    obtain ⟨k, d, hcs, hd, rfl⟩ := spells_concat.1 h
    obtain ⟨k', d', hcs', hd', rfl⟩ := spells_concat.1 h'
    rw [ih hcs hcs', hd.unique hbase hd']

/-- Digits can be read in two parts. -/
theorem readDigits_append (base n : Nat) (front behind : List Char) :
    readDigits base n (front ++ behind) =
      (readDigits base n front).bind fun m => readDigits base m behind := by
  induction front generalizing n with
  | nil => rfl
  | cons c cs ih =>
    rw [List.cons_append, readDigits, readDigits]
    split
    · rfl
    · split
      · exact ih _
      · rfl

/-- Digits are read if and only if those before the last one are, and then the last one is. -/
theorem readDigits_concat_eq_ok_iff : readDigits base 0 (cs ++ [c]) = .ok n ↔
    ∃ m, readDigits base 0 cs = .ok m ∧ readDigits base m [c] = .ok n := by
  rw [readDigits_append]
  cases readDigits base 0 cs with
  | error e => simp [Except.bind]
  | ok m => simp [Except.bind]

/-- Reading digits fails before the last one or at the last one. -/
theorem readDigits_concat_eq_error_iff : readDigits base 0 (cs ++ [c]) = .error e ↔
    readDigits base 0 cs = .error e ∨
      ∃ m, readDigits base 0 cs = .ok m ∧ readDigits base m [c] = .error e := by
  rw [readDigits_append]
  cases readDigits base 0 cs with
  | error e' => simp [Except.bind]
  | ok m => simp [Except.bind]

/-- A digit is read if the number with it still fits into a byte. -/
theorem readDigits_of_digit (hbase : base ≤ 16) (hd : IsDigit base c d) :
    readDigits base n [c] =
      if n * base + d < 256 then .ok (n * base + d) else .error .overflow := by
  rw [readDigits, (digitValue?_eq_some_iff hbase).2 hd]
  rfl

/-- A character that is no digit is not read. -/
theorem readDigits_of_not_digit (hbase : base ≤ 16) (h : ∀ d, ¬ IsDigit base c d) :
    readDigits base n [c] = .error .invalidDigit := by
  rw [readDigits, (digitValue?_eq_none_iff hbase).2 h]

/-- One character is read if and only if it is a digit with which the number fits into a byte. -/
theorem readDigits_singleton_eq_ok_iff (hbase : base ≤ 16) : readDigits base n [c] = .ok m ↔
    ∃ d, IsDigit base c d ∧ m = n * base + d ∧ m ≤ 255 := by
  by_cases hc : ∃ d, IsDigit base c d
  · obtain ⟨d, hd⟩ := hc
    rw [readDigits_of_digit hbase hd]
    refine ⟨fun h => ?_, ?_⟩
    · split at h
      · cases h
        exact ⟨d, hd, rfl, by omega⟩
      · cases h
    · rintro ⟨d', hd', rfl, hle⟩
      cases hd.unique hbase hd'
      rw [if_pos (by omega)]
  · rw [readDigits_of_not_digit hbase (not_exists.1 hc)]
    exact ⟨nofun, fun ⟨d, hd, _⟩ => absurd ⟨d, hd⟩ hc⟩

/-- One character is refused because it is no digit or because the number is too large with it. -/
theorem readDigits_singleton_eq_error_iff (hbase : base ≤ 16) :
    readDigits base n [c] = .error e ↔
      e = .invalidDigit ∧ (∀ d, ¬ IsDigit base c d) ∨
      e = .overflow ∧ ∃ d, IsDigit base c d ∧ 255 < n * base + d := by
  by_cases hc : ∃ d, IsDigit base c d
  · obtain ⟨d, hd⟩ := hc
    rw [readDigits_of_digit hbase hd]
    refine ⟨fun h => ?_, ?_⟩
    · split at h
      · cases h
      · cases h
        exact .inr ⟨rfl, d, hd, by omega⟩
    · rintro (⟨rfl, hnone⟩ | ⟨rfl, d', hd', hlarge⟩)
      · exact absurd hd (hnone d)
      · cases hd.unique hbase hd'
        rw [if_neg (by omega)]
  · rw [readDigits_of_not_digit hbase (not_exists.1 hc)]
    refine ⟨fun h => ?_, ?_⟩
    · cases h
      exact .inl ⟨rfl, not_exists.1 hc⟩
    · rintro (⟨rfl, -⟩ | ⟨rfl, d, hd, -⟩)
      · rfl
      · exact absurd ⟨d, hd⟩ hc

/-- Digits are read if and only if the number that they spell fits into a byte. -/
theorem readDigits_eq_ok_iff (hpos : 0 < base) (hbase : base ≤ 16) :
    readDigits base 0 cs = .ok n ↔ Spells base cs n ∧ n ≤ 255 := by
  induction cs using List.reverseRecOn generalizing n with
  | nil =>
    rw [readDigits, spells_nil, Except.ok.injEq]
    omega
  | append_singleton cs c ih =>
    rw [readDigits_concat_eq_ok_iff, spells_concat]
    simp only [ih, readDigits_singleton_eq_ok_iff hbase]
    refine ⟨?_, ?_⟩
    · rintro ⟨m, ⟨hcs, -⟩, d, hd, hn, hle⟩
      exact ⟨⟨m, d, hcs, hd, hn⟩, hle⟩
    · rintro ⟨⟨m, d, hcs, hd, hn⟩, hle⟩
      -- the number only grows
      have hgrows : m ≤ m * base := Nat.le_mul_of_pos_right m hpos
      exact ⟨m, ⟨hcs, by omega⟩, d, hd, hn, hle⟩

/-- Digits that cannot all be read are read up to a character, and this one cannot be read. -/
theorem readDigits_eq_error_iff : readDigits base 0 cs = .error e ↔
    ∃ front c behind n, cs = front ++ c :: behind ∧ readDigits base 0 front = .ok n ∧
      readDigits base n [c] = .error e := by
  refine ⟨fun h => ?_, ?_⟩
  · induction cs using List.reverseRecOn with
    | nil => cases h
    | append_singleton cs c ih =>
      rcases readDigits_concat_eq_error_iff.1 h with hcs | ⟨n, hcs, hc⟩
      · obtain ⟨front, c', behind, n, rfl, hfront, hc'⟩ := ih hcs
        exact ⟨front, c', behind ++ [c], n, by simp, hfront, hc'⟩
      · exact ⟨cs, c, [], n, rfl, hcs, hc⟩
  · rintro ⟨front, c, behind, n, rfl, hfront, hc⟩
    have hrest : readDigits base n (c :: behind) = .error e := by
      rw [← List.singleton_append, readDigits_append, hc]
      rfl
    rw [readDigits_append, hfront]
    exact hrest

/-! ## Numerals -/

/-- There is nothing behind the sign if and only if the text is empty or the sign alone. -/
theorem unsigned_eq_nil_iff : unsigned cs = [] ↔ cs = [] ∨ cs = ['+'] := by
  unfold unsigned
  split <;> simp_all

/-- What is behind the sign is read as digits. -/
theorem readNumber_of_unsigned (h : unsigned cs ≠ []) :
    readNumber base cs = readDigits base 0 (unsigned cs) := by
  unfold readNumber
  split
  · exact absurd rfl h
  · exact absurd rfl h
  · rfl
  · next hplus =>
    unfold unsigned
    split
    · exact absurd rfl (hplus _)
    · rfl

/-- A numeral is read if and only if its number fits into a byte. -/
theorem readNumber_eq_ok_iff (hpos : 0 < base) (hbase : base ≤ 16) :
    readNumber base cs = .ok n ↔ IsNumeral base cs n ∧ n ≤ 255 := by
  by_cases hcs : unsigned cs = []
  · have hread : readNumber base cs ≠ .ok n := by
      rcases unsigned_eq_nil_iff.1 hcs with rfl | rfl <;> exact nofun
    exact iff_of_false hread fun h => h.1.nonempty hcs
  · rw [readNumber_of_unsigned hcs, readDigits_eq_ok_iff hpos hbase]
    exact and_congr_left fun _ => ⟨fun h => ⟨hcs, h⟩, IsNumeral.spells⟩

/-- Without a digit or another character behind the sign, there is nothing, or a sign. -/
theorem NumeralFault.of_unsigned_eq_nil (h : NumeralFault base cs e) (hcs : unsigned cs = []) :
    cs = [] ∧ e = .empty ∨ cs = ['+'] ∧ e = .invalidDigit := by
  cases h with
  | empty => exact .inl ⟨rfl, rfl⟩
  | loneSign => exact .inr ⟨rfl, rfl⟩
  | noDigit hsplit | tooLarge hsplit =>
    rw [hcs] at hsplit
    simp at hsplit

/-- What is reported of a text is what is wrong with it. -/
theorem readNumber_eq_error_iff (hpos : 0 < base) (hbase : base ≤ 16) :
    readNumber base cs = .error e ↔ NumeralFault base cs e := by
  by_cases hcs : unsigned cs = []
  · refine ⟨fun h => ?_, fun h => ?_⟩
    · rcases unsigned_eq_nil_iff.1 hcs with rfl | rfl <;> cases h
      · exact .empty
      · exact .loneSign
    · rcases h.of_unsigned_eq_nil hcs with ⟨rfl, rfl⟩ | ⟨rfl, rfl⟩ <;> rfl
  · rw [readNumber_of_unsigned hcs, readDigits_eq_error_iff]
    simp only [readDigits_eq_ok_iff hpos hbase, readDigits_singleton_eq_error_iff hbase]
    refine ⟨?_, fun h => ?_⟩
    · rintro ⟨front, c, behind, n, hsplit, ⟨hfront, hn⟩, ⟨rfl, hc⟩ | ⟨rfl, d, hd, hlarge⟩⟩
      · exact .noDigit hsplit hfront hn hc
      · exact .tooLarge hsplit hfront hn (spells_concat.2 ⟨n, d, hfront, hd, rfl⟩) hlarge
    · cases h with
      | empty | loneSign => exact absurd rfl hcs
      | @noDigit _ front behind c n hsplit hfront hn hc =>
        exact ⟨front, c, behind, n, hsplit, ⟨hfront, hn⟩, .inl ⟨rfl, hc⟩⟩
      | @tooLarge _ front behind c n m hsplit hfront hn hwith hm =>
        obtain ⟨n', d, hfront', hd, rfl⟩ := spells_concat.1 hwith
        cases hfront.unique hbase hfront'
        exact ⟨front, c, behind, n, hsplit, ⟨hfront, hn⟩, .inr ⟨rfl, d, hd, hm⟩⟩

end Modbus.UnitId
