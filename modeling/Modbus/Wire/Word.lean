/-!
# Bytes and words on the wire

Everything a connection carries is a list of bytes; what has come of it so far ends inside a message
or behind it (`Bytes.part_or_whole`). A word has sixteen bits and goes high byte first
(`Word.bytes`). Words and pairs of bytes are in one-to-one correspondence (`Word.ofBytes_high_low`,
`Word.bytes_ofBytes`). `Word.listBytes` writes several words one after another.
-/

namespace Modbus

/-- A string of bytes, as it is sent or received. -/
abbrev Bytes := List UInt8

/-- Bytes that begin with a whole message are cut off within the message or behind it. -/
theorem Bytes.part_or_whole {front more whole tail : Bytes} (h : front ++ more = whole ++ tail) :
    (front.length < whole.length ∧ ∃ missing, missing ≠ [] ∧ front ++ missing = whole) ∨
      ∃ behind, front = whole ++ behind ∧ behind ++ more = tail := by
  rcases List.append_eq_append_iff.1 h with ⟨missing, hwhole, hmore⟩ | ⟨behind, hfront, htail⟩
  · by_cases hmissing : missing = []
    · subst hmissing
      exact .inr ⟨[], by simpa using hwhole.symm, by simpa using hmore⟩
    · have hpos := List.length_pos_iff.2 hmissing
      refine .inl ⟨?_, missing, hmissing, hwhole.symm⟩
      rw [hwhole, List.length_append]
      omega
  · exact .inr ⟨behind, hfront, htail.symm⟩

/-- A register value or another field of sixteen bits. -/
abbrev Word := UInt16

/-- The address of a register within a unit. -/
abbrev Address := UInt16

/-- A number of registers, as a request states it. -/
abbrev Quantity := UInt16

namespace Word

/-- The more significant byte of a word. -/
def high (w : Word) : UInt8 := UInt8.ofNat (w.toNat / 256)

/-- The less significant byte of a word. -/
def low (w : Word) : UInt8 := UInt8.ofNat (w.toNat % 256)

/-- A word on the wire, high byte first. -/
def bytes (w : Word) : Bytes := [high w, low w]

/-- The word with the given high and low byte. -/
def ofBytes (hi lo : UInt8) : Word := UInt16.ofNat (256 * hi.toNat + lo.toNat)

/-- Words on the wire, one after another. -/
def listBytes (ws : List Word) : Bytes := ws.flatMap bytes

@[simp] theorem length_bytes (w : Word) : (bytes w).length = 2 := rfl

@[simp] theorem listBytes_nil : listBytes [] = [] := rfl

@[simp] theorem listBytes_cons (w : Word) (ws : List Word) :
    listBytes (w :: ws) = bytes w ++ listBytes ws := rfl

/-- Every word takes two bytes. -/
@[simp] theorem length_listBytes (ws : List Word) : (listBytes ws).length = 2 * ws.length := by
  induction ws with
  | nil => rfl
  | cons w ws ih => simp [ih]; omega

/-- The high byte of a word counts its multiples of 256. -/
theorem toNat_high (w : Word) : (high w).toNat = w.toNat / 256 := by
  have := w.toNat_lt
  simp only [high, UInt8.toNat_ofNat']
  omega

/-- The low byte of a word counts what is left. -/
theorem toNat_low (w : Word) : (low w).toNat = w.toNat % 256 := by
  simp [low]

/-- A word is told by its bytes, the high one first. -/
theorem toNat_ofBytes (hi lo : UInt8) : (ofBytes hi lo).toNat = 256 * hi.toNat + lo.toNat := by
  have := hi.toNat_lt
  have := lo.toNat_lt
  simp only [ofBytes, UInt16.toNat_ofNat']
  omega

/-- A word is read back from its two bytes. -/
@[simp] theorem ofBytes_high_low (w : Word) : ofBytes (high w) (low w) = w := by
  rw [← UInt16.toNat_inj, toNat_ofBytes, toNat_high, toNat_low]
  omega

/-- The high byte is read back from a word of two bytes. -/
@[simp] theorem high_ofBytes (hi lo : UInt8) : high (ofBytes hi lo) = hi := by
  have := lo.toNat_lt
  rw [← UInt8.toNat_inj, toNat_high, toNat_ofBytes]
  omega

/-- The low byte is read back as well. -/
@[simp] theorem low_ofBytes (hi lo : UInt8) : low (ofBytes hi lo) = lo := by
  have := lo.toNat_lt
  rw [← UInt8.toNat_inj, toNat_low, toNat_ofBytes]
  omega

/-- Two bytes are read back from the word they make. -/
@[simp] theorem bytes_ofBytes (hi lo : UInt8) : bytes (ofBytes hi lo) = [hi, lo] := by
  simp [bytes]

end Word

end Modbus
