import Modbus.Proofs.Register.Access

/-!
# What a bank stores

A bank is read and written by ranges. An access succeeds if and only if its range has a register
and ends inside the bank (`Bank.read_succeeds_iff`, `Bank.write_succeeds_iff`); the end is a number
without a limit, so a range never goes round to the front. An access that fails leaves the bank as
it was (`Bank.act_error_inv`).

In a run of accesses the word in a register is the one that the last write to it has put there,
among the writes that have succeeded, and if there is none, the word that was there at first
(`Bank.LastWord`). An access puts a word into a register (`Bank.Puts.getElem?_act`) or leaves it
alone (`Bank.getElem?_act_of_not_puts`), and then there is a new last word (`Bank.PutsAt.lastWord`)
or the old one goes on (`Bank.LastWord.succ`). So the two agree after every run
(`Bank.getElem?_after`).
-/

namespace Modbus

/-- An access to the registers of a bank. -/
inductive BankAct where
  | read (address : Address) (count : Nat)
  | write (address : Address) (values : List Word)

namespace BankAct

/-- Where the range of an access begins. -/
def address : BankAct → Address
  | read address _ | write address _ => address

/-- The number of registers in the range of an access. -/
def count : BankAct → Nat
  | read _ count => count
  | write _ values => values.length

end BankAct

namespace Bank

/-- What an access gives, which for a write is no words, and the bank after it. -/
def act (b : Bank) : BankAct → Except RegisterError (List Word) × Bank
  | .read address count => (b.read address count, b)
  | .write address values =>
    match b.write address values with
    | .ok b' => (.ok [], b')
    | .error e => (.error e, b)

/-- The bank after the first accesses of a run. -/
def after (b : Bank) (acts : List BankAct) (n : Nat) : Bank :=
  (acts.take n).foldl (fun b a => (b.act a).2) b

/-- An access puts a word into a register: it is a write that succeeds, and the register is in its
range. -/
inductive Puts (b : Bank) (r : Nat) (word : Word) : BankAct → Prop where
  | write {address : Address} {values : List Word} {b' : Bank}
    (h : b.write address values = .ok b') (hle : address.toNat ≤ r)
    (hvalue : values[r - address.toNat]? = some word) : Puts b r word (.write address values)

/-- At a position of a run, a word is put into a register. -/
def PutsAt (b : Bank) (acts : List BankAct) (n r : Nat) (word : Word) : Prop :=
  ∃ a, acts[n]? = some a ∧ (b.after acts n).Puts r word a

/-- The word that the first accesses of a run have left in a register. -/
inductive LastWord (b : Bank) (acts : List BankAct) (n r : Nat) (word : Word) : Prop where
  /-- It has been put there, and no other word has been put there since. -/
  | put {k : Nat} (hk : k < n) (h : b.PutsAt acts k r word)
    (hlast : ∀ m, k < m → m < n → ∀ other, ¬ b.PutsAt acts m r other)
  /-- It was there at first, and no word has been put there. -/
  | initial (h : b.words[r]? = some word) (hnone : ∀ m < n, ∀ other, ¬ b.PutsAt acts m r other)

variable {b b' : Bank} {acts : List BankAct} {a : BankAct} {address : Address} {count n r : Nat}
  {values words : List Word} {word other : Word} {e : RegisterError}

/-! ## One access -/

/-- A read succeeds if and only if it is of at least one register and lies within the bank. -/
theorem read_succeeds_iff : (∃ words, b.read address count = .ok words) ↔
    1 ≤ count ∧ address.toNat + count ≤ b.words.length := by
  show _ ↔ b.Covers address count
  unfold read
  split <;> simp [*]

/-- So does a write. -/
theorem write_succeeds_iff : (∃ b', b.write address values = .ok b') ↔
    1 ≤ values.length ∧ address.toNat + values.length ≤ b.words.length := by
  show _ ↔ b.Covers address values.length
  unfold write
  split <;> simp [*]

/-- A read that succeeds gives the words of its range, in order. -/
theorem words_of_read (h : b.read address count = .ok words) :
    words.length = count ∧ ∀ i < count, words[i]? = b.words[address.toNat + i]? := by
  obtain ⟨-, hend⟩ := read_succeeds_iff.1 ⟨words, h⟩
  unfold read at h
  split at h
  · cases h
    refine ⟨?_, fun i hi => ?_⟩
    · rw [List.length_take, List.length_drop]
      omega
    · rw [List.getElem?_take_of_lt hi, List.getElem?_drop]
  · cases h

/-- The word of a single register is the one that a read of this register gives. -/
theorem get?_eq_some_iff : b.get? address = some word ↔ b.read address 1 = .ok [word] := by
  refine ⟨fun h => ?_, fun h => ?_⟩
  · have hlt : address.toNat < b.words.length := (List.getElem?_eq_some_iff.1 h).1
    obtain ⟨words, hread⟩ := read_succeeds_iff.2 ⟨Nat.le_refl 1, hlt⟩
    obtain ⟨hlength, hwords⟩ := words_of_read hread
    obtain ⟨first, rfl⟩ := List.length_eq_one_iff.1 hlength
    have hfirst : some first = b.words[address.toNat]? := hwords 0 Nat.one_pos
    rw [get?] at h
    rw [hread, Option.some.inj (hfirst.trans h)]
  · have hfirst : some word = b.words[address.toNat]? := (words_of_read h).2 0 Nat.one_pos
    rw [get?, ← hfirst]

/-- A read that fails names its range and the number of registers. -/
theorem eq_illegal_of_read (h : b.read address count = .error e) :
    e = b.illegal address count := by
  unfold read at h
  split at h <;> cases h
  rfl

/-- So does a write that fails. -/
theorem eq_illegal_of_write (h : b.write address values = .error e) :
    e = b.illegal address values.length := by
  unfold write at h
  split at h <;> cases h
  rfl

/-- An access that fails names its range and the number of registers, and changes nothing. -/
theorem act_error_inv (h : (b.act a).1 = .error e) :
    e = b.illegal a.address a.count ∧ (b.act a).2 = b := by
  cases a with
  | read address count => exact ⟨eq_illegal_of_read h, rfl⟩
  | write address values =>
    simp only [act] at h ⊢
    cases hw : b.write address values with
    | ok b' => rw [hw] at h; cases h
    | error e' =>
      rw [hw] at h
      cases h
      exact ⟨eq_illegal_of_write hw, rfl⟩

/-- No access changes the number of registers. -/
theorem length_act (b : Bank) (a : BankAct) : (b.act a).2.words.length = b.words.length := by
  cases a with
  | read address count => rfl
  | write address values =>
    simp only [act]
    split
    · exact length_of_write ‹_›
    · rfl

/-- A word that is put into a register is there after the access. -/
theorem Puts.getElem?_act (h : b.Puts r word a) : (b.act a).2.words[r]? = some word := by
  cases h with
  | @write address values b' hw hle hvalue =>
    have hlt := (List.getElem?_eq_some_iff.1 hvalue).1
    have hact : (b.act (.write address values)).2 = b' := by rw [act, hw]
    rw [hact, getElem?_write hw, if_pos ⟨hle, by omega⟩, hvalue]

/-- A register into which nothing is put holds what it has held. -/
theorem getElem?_act_of_not_puts (h : ∀ word, ¬ b.Puts r word a) :
    (b.act a).2.words[r]? = b.words[r]? := by
  cases a with
  | read address count => rfl
  | write address values =>
    cases hw : b.write address values with
    | error e => rw [act, hw]
    | ok b' =>
      have hact : (b.act (.write address values)).2 = b' := by rw [act, hw]
      rw [hact, getElem?_write hw, if_neg]
      rintro ⟨hle, hlt⟩
      have hvalue : values[r - address.toNat]? = some values[r - address.toNat] :=
        List.getElem?_eq_getElem (by omega)
      exact h _ (.write hw hle hvalue)

/-! ## Runs -/

/-- Behind an access, the bank is the one before it with the access made. -/
theorem after_succ (h : acts[n]? = some a) :
    b.after acts (n + 1) = ((b.after acts n).act a).2 := by
  simp [after, List.take_add_one, h]

/-- There is nothing behind the last access. -/
theorem after_succ_of_none (h : acts[n]? = none) : b.after acts (n + 1) = b.after acts n := by
  simp [after, List.take_add_one, h]

/-- The number of registers is the same all along a run. -/
theorem length_after (b : Bank) (acts : List BankAct) (n : Nat) :
    (b.after acts n).words.length = b.words.length := by
  induction n with
  | zero => rfl
  | succ n ih =>
    cases ha : acts[n]? with
    | none => rw [after_succ_of_none ha, ih]
    | some a => rw [after_succ ha, length_act, ih]

/-- A word that is put into a register at a position of a run is there behind it. -/
theorem PutsAt.getElem?_after (h : b.PutsAt acts n r word) :
    (b.after acts (n + 1)).words[r]? = some word := by
  obtain ⟨a, ha, hputs⟩ := h
  rw [after_succ ha, hputs.getElem?_act]

/-- At a position where nothing is put into a register, it keeps what it has held. -/
theorem getElem?_after_of_not_putsAt (h : ∀ word, ¬ b.PutsAt acts n r word) :
    (b.after acts (n + 1)).words[r]? = (b.after acts n).words[r]? := by
  cases ha : acts[n]? with
  | none => rw [after_succ_of_none ha]
  | some a =>
    rw [after_succ ha]
    exact getElem?_act_of_not_puts fun word hputs => h word ⟨a, ha, hputs⟩

/-- A word that has just been put into a register is the last one. -/
theorem PutsAt.lastWord (h : b.PutsAt acts n r word) : b.LastWord acts (n + 1) r word :=
  .put (Nat.lt_succ_self n) h fun m hnm hm => absurd hm (by omega)

/-- The last word stays the last one where nothing is put into the register. -/
theorem LastWord.succ (h : b.LastWord acts n r word) (hnone : ∀ other, ¬ b.PutsAt acts n r other) :
    b.LastWord acts (n + 1) r word := by
  cases h with
  | @put k hk hputs hlast =>
    refine .put (Nat.lt_succ_of_lt hk) hputs fun m hkm hm => ?_
    rcases Nat.lt_succ_iff_lt_or_eq.1 hm with hlt | rfl
    · exact hlast m hkm hlt
    · exact hnone
  | initial hword hbefore =>
    refine .initial hword fun m hm => ?_
    rcases Nat.lt_succ_iff_lt_or_eq.1 hm with hlt | rfl
    · exact hbefore m hlt
    · exact hnone

/-- A last word has just been put into the register, or it has been the last one before. -/
theorem LastWord.succ_inv (h : b.LastWord acts (n + 1) r word) :
    b.PutsAt acts n r word ∨
      (∀ other, ¬ b.PutsAt acts n r other) ∧ b.LastWord acts n r word := by
  cases h with
  | @put k hk hputs hlast =>
    rcases Nat.lt_succ_iff_lt_or_eq.1 hk with hlt | rfl
    · refine .inr ⟨hlast n hlt (Nat.lt_succ_self n), .put hlt hputs fun m hkm hm => ?_⟩
      exact hlast m hkm (Nat.lt_succ_of_lt hm)
    · exact .inl hputs
  | initial hword hbefore =>
    refine .inr ⟨hbefore n (Nat.lt_succ_self n), .initial hword fun m hm => ?_⟩
    exact hbefore m (Nat.lt_succ_of_lt hm)

/-- **The last word wins**: after a run a register holds a word if and only if this is the last one
that has been put there. -/
theorem getElem?_after : (b.after acts n).words[r]? = some word ↔ b.LastWord acts n r word := by
  induction n generalizing word with
  | zero =>
    refine ⟨fun h => .initial h fun m hm => absurd hm (Nat.not_lt_zero m), fun h => ?_⟩
    cases h with
    | put hk => exact absurd hk (Nat.not_lt_zero _)
    | initial hword => exact hword
  | succ n ih =>
    refine ⟨fun h => ?_, fun h => ?_⟩
    · by_cases hputs : ∃ other, b.PutsAt acts n r other
      · obtain ⟨other, hputs⟩ := hputs
        rw [hputs.getElem?_after] at h
        cases h
        exact hputs.lastWord
      · have hnone := not_exists.1 hputs
        rw [getElem?_after_of_not_putsAt hnone] at h
        exact (ih.1 h).succ hnone
    · rcases h.succ_inv with hputs | ⟨hnone, hlast⟩
      · exact hputs.getElem?_after
      · rw [getElem?_after_of_not_putsAt hnone]
        exact ih.2 hlast

/-! ## Reading back -/

/-- What a bank makes of the accesses to it. -/
structure StoresWords (b : Bank) : Prop where
  /-- A read succeeds if and only if its range has a register and ends inside the bank. -/
  reads : ∀ address count, (∃ words, b.read address count = .ok words) ↔
    1 ≤ count ∧ address.toNat + count ≤ b.words.length
  /-- So does a write. -/
  writes : ∀ address values, (∃ b', b.write address values = .ok b') ↔
    1 ≤ values.length ∧ address.toNat + values.length ≤ b.words.length
  /-- The words of a read are those of its range, in order. -/
  read : ∀ {address count words}, b.read address count = .ok words →
    words.length = count ∧ ∀ i < count, words[i]? = b.words[address.toNat + i]?
  /-- A single register gives what is read from it. -/
  single : ∀ {address word}, b.get? address = some word ↔ b.read address 1 = .ok [word]
  /-- A write puts its values into its range, and leaves the other registers alone. -/
  written : ∀ {address values b'}, b.write address values = .ok b' →
    b'.words.length = b.words.length ∧ ∀ r, b'.words[r]? =
      if address.toNat ≤ r ∧ r < address.toNat + values.length then values[r - address.toNat]?
      else b.words[r]?
  /-- An access that fails names its range and the number of registers, and changes nothing. -/
  failed : ∀ {a e}, (b.act a).1 = .error e →
    e = .illegalAddress a.address a.count b.words.length ∧ (b.act a).2 = b
  /-- A run does not change the number of registers. -/
  length : ∀ acts n, (b.after acts n).words.length = b.words.length
  /-- After a run every range that could be read at first can still be read, and gives the last word
  of each of its registers. -/
  readsBack : ∀ acts n {address count}, 1 ≤ count → address.toNat + count ≤ b.words.length →
    ∃ words, (b.after acts n).read address count = .ok words ∧ words.length = count ∧
      ∀ i < count, ∀ word,
        words[i]? = some word ↔ b.LastWord acts n (address.toNat + i) word

/-- **A bank stores what is written to it**, whatever its length. -/
theorem stores_words (b : Bank) : b.StoresWords where
  reads _ _ := read_succeeds_iff
  writes _ _ := write_succeeds_iff
  read := words_of_read
  single := get?_eq_some_iff
  written hw := ⟨length_of_write hw, getElem?_write hw⟩
  failed := act_error_inv
  length := length_after b
  readsBack := by
    intro acts n address count hcount hend
    rw [← length_after b acts n] at hend
    obtain ⟨words, hread⟩ := read_succeeds_iff.2 ⟨hcount, hend⟩
    obtain ⟨hlength, hwords⟩ := words_of_read hread
    refine ⟨words, hread, hlength, fun i hi word => ?_⟩
    rw [hwords i hi, getElem?_after]

/-- Writes that overlap, one that ends behind the bank, and one of nothing. -/
example : ((zeros 4).after
    [.write 0 [1, 2, 3], .write 2 [7, 8], .write 3 [5, 6], .write 1 []] 4).read 0 4 =
      .ok [1, 2, 7, 8] := rfl

end Bank

end Modbus
