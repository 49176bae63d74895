import Modbus.Proofs.Register.History
import Modbus.Proofs.Slave.Interleaving

/-!
# Requests that commute

Two orders are independent if they go to different units, if neither of them is one to write, if
they concern different registers of their unit, or if one of them is custom (`Independent`). Of all
this one thing matters: neither of them writes to a register that the other one concerns
(`Spares`). Then it does not matter in which order they are carried out, whether they succeed or
fail (`ProcessImage.commutes_handle`), and neither does it matter how the orders of several clients
are interleaved (`ProcessImage.serves_independently`).

On a register machine this comes in two parts. The answer to a request is told by the shape of the
row of its unit, which no request changes, and by the words that it concerns
(`RegisterMachine.answer_congr`). What a request leaves is its answer applied to the registers
(`RegisterMachine.after_answer`), and writes into different registers can be applied in either order
(`RegisterMachine.overwrite_comm`). An image has the cells of its units, and the others it does not
change, so what holds of its contents holds of the memory (`ProcessImage.eq_of_contents`).
-/

namespace Modbus

/-! ## Orders that do not conflict -/

namespace Request

/-- Whether a request concerns a register of its unit: it asks for the word in it or writes to it.
A range that goes beyond the last address goes on from there. -/
def Touches : Request → Nat → Prop
  | readHoldingRegisters address quantity, n =>
    address.toNat ≤ n ∧ n < address.toNat + quantity.toNat
  | writeSingleRegister address _, n => n = address.toNat
  | writeMultipleRegisters address words, n =>
    address.toNat ≤ n ∧ n < address.toNat + words.length
  | custom .., _ => False

/-- Whether a request is one to write. -/
def IsWrite : Request → Prop
  | writeSingleRegister .. | writeMultipleRegisters .. => True
  | readHoldingRegisters .. | custom .. => False

variable {request : Request} {n : Nat}

/-- A request touches the registers to which it writes. -/
theorem Writes.touches (h : request.Writes n) : request.Touches n := by
  cases request with
  | writeSingleRegister | writeMultipleRegisters => exact h
  | readHoldingRegisters | custom => cases h

/-- Only a write writes to registers. -/
theorem Writes.isWrite (h : request.Writes n) : request.IsWrite := by
  cases request with
  | writeSingleRegister | writeMultipleRegisters => trivial
  | readHoldingRegisters | custom => cases h

end Request

/-- Whether two orders do not conflict. -/
inductive Independent : UnitId × Request → UnitId × Request → Prop where
  | units {unit unit' : UnitId} {request request' : Request} (h : unit ≠ unit') :
    Independent (unit, request) (unit', request')
  | reads {unit unit' : UnitId} {request request' : Request} (h : ¬ request.IsWrite)
    (h' : ¬ request'.IsWrite) : Independent (unit, request) (unit', request')
  | registers {unit : UnitId} {request request' : Request}
    (h : ∀ n, request.Touches n → ¬ request'.Touches n) :
    Independent (unit, request) (unit, request')
  | customFirst {unit : UnitId} {code : UInt8} {data : Bytes} {o' : UnitId × Request} :
    Independent (unit, .custom code data) o'
  | customSecond {o : UnitId × Request} {unit : UnitId} {code : UInt8} {data : Bytes} :
    Independent o (unit, .custom code data)

/-- Whether an order writes to no register that another one concerns. -/
def Spares (o o' : UnitId × Request) : Prop :=
  o'.1 = o.1 → ∀ n, o.2.Writes n → ¬ o'.2.Touches n

/-- Orders that do not conflict spare each other. -/
theorem Independent.spares {o o' : UnitId × Request} (h : Independent o o') :
    Spares o o' ∧ Spares o' o := by
  cases h with
  | units hne => exact ⟨fun heq => absurd heq.symm hne, fun heq => absurd heq hne⟩
  | reads h h' =>
    exact ⟨fun _ n hw => absurd hw.isWrite h, fun _ n hw => absurd hw.isWrite h'⟩
  | registers h =>
    exact ⟨fun _ n hw => h n hw.touches, fun _ n hw ht => h n ht hw.touches⟩
  | customFirst => exact ⟨fun _ n hw => hw.elim, fun _ n _ ht => ht.elim⟩
  | customSecond => exact ⟨fun _ n _ ht => ht.elim, fun _ n hw => hw.elim⟩

/-! ## Writes into different registers -/

/-- Replacing words in two ranges that have no place in common. -/
theorem Row.replace_comm (words : List Word) {address address' : Nat} {values values' : List Word}
    (h : ∀ n, address ≤ n ∧ n < address + values.length →
      ¬ (address' ≤ n ∧ n < address' + values'.length)) :
    replace (replace words address values) address' values' =
      replace (replace words address' values') address values := by
  apply List.ext_getElem?
  intro n
  have hout {start : Nat} {vs : List Word} (hn : ¬ (start ≤ n ∧ n < start + vs.length))
      (word : Word) : (if start ≤ n then (vs[n - start]?).getD word else word) = word := by
    split
    · rw [List.getElem?_eq_none (by omega)]
      rfl
    · rfl
  simp only [getElem?_replace, Option.map_map]
  congr 1
  funext word
  -- at most one of the two ranges has the register in it
  by_cases hn : address ≤ n ∧ n < address + values.length
  · simp only [Function.comp, hout (h n hn)]
  · simp only [Function.comp, hout hn]

/-- Where there are no words to put, nothing is replaced. -/
theorem Row.replace_nil (words : List Word) (address : Nat) : replace words address [] = words := by
  apply List.ext_getElem?
  intro n
  simp [getElem?_replace]

/-- The number of registers of a row, and whether it has broken down. -/
def Row.shape (row : Row) : Nat × Bool := (row.words.length, row.isBroken)

namespace RegisterMachine

variable {m m' : RegisterMachine} {unit unit' : UnitId} {request : Request}

/-- Words that are put into different registers may be put there in either order. -/
theorem overwrite_comm (m : RegisterMachine) {address address' : Address}
    {values values' : List Word}
    (h : unit' = unit → ∀ n, address.toNat ≤ n ∧ n < address.toNat + values.length →
      ¬ (address'.toNat ≤ n ∧ n < address'.toNat + values'.length)) :
    (m.overwrite unit address values).overwrite unit' address' values' =
      (m.overwrite unit' address' values').overwrite unit address values := by
  funext other
  by_cases hunit : unit' = unit
  · subst hunit
    by_cases hother : other = unit'
    · subst hother
      simp [overwrite, Function.comp_def, Row.replace_comm _ (h rfl)]
    · simp [overwrite, hother]
  · by_cases hother : other = unit
    · subst hother
      simp [overwrite, Ne.symm hunit]
    · by_cases hother' : other = unit'
      · subst hother'
        simp [overwrite, hunit]
      · simp [overwrite, hother, hother']

/-- What a request asks to write goes into the registers to which it writes. A request that is not
one to write goes into none. -/
theorem carryOut_eq_overwrite (request : Request) : ∃ (address : Address) (values : List Word),
    (∀ (m : RegisterMachine) (unit : UnitId),
      m.carryOut unit request = m.overwrite unit address values) ∧
    ∀ n, request.Writes n ↔ address.toNat ≤ n ∧ n < address.toNat + values.length := by
  have hnothing (m : RegisterMachine) (unit : UnitId) : m = m.overwrite unit 0 [] := by
    funext other
    by_cases hother : other = unit
    · subst hother
      simp [overwrite, Row.replace_nil]
    · simp [overwrite, hother]
  cases request with
  | readHoldingRegisters address quantity => exact ⟨0, [], hnothing, by simp [Request.Writes]⟩
  | writeSingleRegister address word =>
    refine ⟨address, [word], fun m unit => rfl, fun n => ?_⟩
    simp only [Request.Writes, List.length_singleton]
    omega
  | writeMultipleRegisters address words => exact ⟨address, words, fun m unit => rfl, fun n => .rfl⟩
  | custom code data => exact ⟨0, [], hnothing, by simp [Request.Writes]⟩

/-- Orders that write to different registers may be carried out in either order. -/
theorem carryOut_comm (m : RegisterMachine) {o o' : UnitId × Request}
    (h : o'.1 = o.1 → ∀ n, o.2.Writes n → ¬ o'.2.Writes n) :
    (m.carryOut o.1 o.2).carryOut o'.1 o'.2 = (m.carryOut o'.1 o'.2).carryOut o.1 o.2 := by
  obtain ⟨address, values, hcarry, hwrites⟩ := carryOut_eq_overwrite o.2
  obtain ⟨address', values', hcarry', hwrites'⟩ := carryOut_eq_overwrite o'.2
  simp only [hcarry, hcarry']
  refine overwrite_comm m fun hunit n hn => ?_
  rw [← hwrites']
  exact h hunit n ((hwrites n).2 hn)

/-! ## Answers -/

/-- No request changes the shape of a row. -/
theorem shape_answer (m : RegisterMachine) (unit : UnitId) (request : Request) (other : UnitId) :
    ((m.answer unit request).2 other).map Row.shape = (m other).map Row.shape := by
  rw [after_answer]
  obtain ⟨address, values, hcarry, -⟩ := carryOut_eq_overwrite request
  cases (m.answer unit request).1 with
  | error e => rfl
  | ok response =>
    simp only [after, hcarry]
    by_cases hother : other = unit
    · subst hother
      simp only [overwrite, if_true, Option.map_map]
      congr 1
      funext row
      simp [Row.shape, Row.replace]
    · simp [overwrite, hother]

/-- Rows of the same shape are found or not found alike. -/
theorem find_congr (hshape : (m unit).map Row.shape = (m' unit).map Row.shape) (address : Address)
    (count : Nat) :
    (∃ e, m.find unit address count = .error e ∧ m'.find unit address count = .error e) ∨
    ∃ row row', m unit = some row ∧ m' unit = some row' ∧
      m.find unit address count = .ok row.words ∧ m'.find unit address count = .ok row'.words := by
  simp only [find]
  cases hrow : m unit with
  | none =>
    have hrow' : m' unit = none := by simpa [hrow] using hshape.symm
    exact .inl ⟨_, rfl, by rw [hrow']⟩
  | some row =>
    obtain ⟨row', hrow', heq⟩ : ∃ row', m' unit = some row' ∧ row'.shape = row.shape := by
      simpa [hrow] using hshape.symm
    obtain ⟨hlength, hbroken⟩ := Prod.mk.inj heq
    simp only [hrow', hlength, hbroken]
    split
    · exact .inl ⟨_, rfl, rfl⟩
    · split
      · exact .inl ⟨_, rfl, rfl⟩
      · exact .inr ⟨row, row', rfl, rfl, rfl, rfl⟩

/-- The answer to a request is told by the shape of the row of its unit and by the words that it
concerns. -/
theorem answer_congr (hshape : (m unit).map Row.shape = (m' unit).map Row.shape)
    (hwords : ∀ n, request.Touches n → m.word? unit n = m'.word? unit n) :
    (m.answer unit request).1 = (m'.answer unit request).1 := by
  cases request with
  | readHoldingRegisters address quantity =>
    simp only [answer]
    split
    · rfl
    · rcases find_congr hshape address quantity.toNat with
        ⟨e, h, h'⟩ | ⟨row, row', hrow, hrow', h, h'⟩
      · rw [h, h']
      · have hpick : Row.pick row.words address.toNat quantity.toNat =
            Row.pick row'.words address.toNat quantity.toNat := by
          refine List.map_congr_left fun n hn => ?_
          have hn := List.mem_range.1 hn
          have hword := hwords (address.toNat + n) ⟨by omega, by omega⟩
          simp only [word?, hrow, hrow', Option.bind_some] at hword
          rw [hword]
        rw [h, h']
        dsimp only
        rw [hpick]
  | writeSingleRegister address word =>
    simp only [answer]
    rcases find_congr hshape address 1 with
      ⟨e, h, h'⟩ | ⟨row, row', -, -, h, h'⟩ <;> rw [h, h']
  | writeMultipleRegisters address values =>
    simp only [answer]
    split
    · rfl
    · rcases find_congr hshape address values.length with
        ⟨e, h, h'⟩ | ⟨row, row', -, -, h, h'⟩ <;> rw [h, h']
  | custom code data => rfl

/-- An order is answered as before by the registers that another one has spared for it. -/
theorem answer_of_spares (m : RegisterMachine) {o o' : UnitId × Request} (h : Spares o o') :
    ((m.answer o.1 o.2).2.answer o'.1 o'.2).1 = (m.answer o'.1 o'.2).1 := by
  refine answer_congr (shape_answer m o.1 o.2 o'.1) fun n htouches => ?_
  refine Decidable.byContradiction fun hne => ?_
  obtain ⟨hunit, hwrites⟩ := writes_of_word?_ne hne
  exact h hunit n hwrites htouches

/-- Orders that spare each other leave the same registers in either order. -/
theorem answer_comm (m : RegisterMachine) {o o' : UnitId × Request} (h : Spares o o')
    (h' : Spares o' o) :
    ((m.answer o.1 o.2).2.answer o'.1 o'.2).2 = ((m.answer o'.1 o'.2).2.answer o.1 o.2).2 := by
  rw [after_answer, answer_of_spares m h, after_answer m o.1, after_answer _ o.1,
    answer_of_spares m h', after_answer m o'.1]
  -- now both sides apply the same two answers, in different orders
  cases (m.answer o.1 o.2).1 with
  | error e => rfl
  | ok response =>
    cases (m.answer o'.1 o'.2).1 with
    | error e => rfl
    | ok response' => exact carryOut_comm m fun hunit n hw hw' => h hunit n hw hw'.touches

end RegisterMachine

/-! ## Images -/

namespace ProcessImage

variable {image : ProcessImage} {memory memory' : Memory}

/-- A memory is told by what an image has in its registers and by the cells that the image does not
have. -/
theorem eq_of_contents (image : ProcessImage) (h : image.contents memory = image.contents memory')
    (hothers : ∀ n, (∀ unit : UnitId, image.cellOf[unit]? ≠ some n) →
      memory.cells[n]? = memory'.cells[n]?) : memory = memory' := by
  have hcells : memory.cells = memory'.cells := by
    apply List.ext_getElem?
    intro n
    by_cases hbound : ∃ unit : UnitId, image.cellOf[unit]? = some n
    · obtain ⟨unit, hn⟩ := hbound
      have hrow := congrFun h unit
      simp only [contents, cell?_of_cellOf hn] at hrow
      refine Option.map_injective ?_ hrow
      rintro ⟨⟨words⟩, isPoisoned⟩ ⟨⟨words'⟩, isPoisoned'⟩ heq
      cases heq
      rfl
    · exact hothers n fun unit hn => hbound ⟨unit, hn⟩
  cases memory
  cases memory'
  cases hcells
  rfl

/-- Executing a request does not change a cell of another image. -/
theorem cell_handle_of_foreign {n : Nat} (h : ∀ unit : UnitId, image.cellOf[unit]? ≠ some n)
    (memory : Memory) (unit : UnitId) (request : Request) :
    (image.handle memory unit request).2.cells[n]? = memory.cells[n]? := by
  rcases image.handle_cells memory unit request with hleft | ⟨n', cell, hn', hleft⟩
  · rw [hleft]
  · have hne : n' ≠ n := by
      rintro rfl
      exact h unit hn'
    rw [hleft]
    exact List.getElem?_set_ne hne

/-- Orders that do not conflict commute when they are executed on the registers of an image. -/
theorem commutes_handle (himage : image.IsProper) {o o' : UnitId × Request}
    (h : Independent o o') : Service.Commutes image.handle o o' := by
  obtain ⟨hspares, hspares'⟩ := h.spares
  constructor
  case first =>
    intro memory
    simp only [answer_handle himage, contents_handle himage]
    exact RegisterMachine.answer_of_spares _ hspares'
  case second =>
    intro memory
    simp only [answer_handle himage, contents_handle himage]
    exact RegisterMachine.answer_of_spares _ hspares
  case state =>
    intro memory
    refine eq_of_contents image ?_ fun n hn => ?_
    · simp only [contents_handle himage]
      exact RegisterMachine.answer_comm _ hspares hspares'
    · simp only [cell_handle_of_foreign hn]

/-- What does not matter to the clients of an image. -/
structure ServesIndependently (image : ProcessImage) : Prop where
  /-- Orders that do not conflict may be executed in either order, on every memory. -/
  commutes : ∀ {o o'}, Independent o o' → Service.Commutes image.handle o o'
  /-- If the orders of different clients do not conflict, each client is answered as if it were
  alone. -/
  alone : ∀ {es}, Errand.ApartBy Independent es → ∀ client memory,
    Service.answersTo image.handle client memory es =
      (Service.executeAll image.handle memory ((Errand.ofClient client es).map Errand.order)).1
  /-- So the answers to each client are the same in every interleaving, and so is the memory in the
  end. -/
  interleaved : ∀ {es es'}, Errand.ApartBy Independent es → Errand.Interleaved es es' →
    ∀ memory, (∀ client, Service.answersTo image.handle client memory es =
        Service.answersTo image.handle client memory es') ∧
      Service.stateBehind image.handle memory es = Service.stateBehind image.handle memory es'

/-- **Orders that do not conflict commute** on the registers of every image of a gallery, whether
they succeed or fail and whatever its banks hold. So it does not matter to clients that keep to
different registers how their requests are interleaved. -/
theorem serves_independently {acts : List (Nat × GalleryAct)} (h : Gallery.IsRun acts) (n i : Nat) :
    ((Gallery.after acts n).image i).ServesIndependently := by
  have himage := Gallery.isProper_image h n i
  have hcommutes {es : List Errand} (hes : Errand.ApartBy Independent es) :
      Errand.ApartBy (Service.Commutes ((Gallery.after acts n).image i).handle) es :=
    hes.imp fun hindependent => commutes_handle himage hindependent
  constructor
  case commutes => exact commutes_handle himage
  case alone => exact fun hes => Service.answersTo_eq_alone (hcommutes hes)
  case interleaved =>
    intro es es' hes hsame memory
    refine ⟨fun client => ?_, Service.stateBehind_eq_of_interleaved (hcommutes hes) hsame memory⟩
    rw [Service.answersTo_eq_alone (hcommutes hes),
      Service.answersTo_eq_alone (hsame.apartBy (hcommutes hes)), hsame client]

/-- A client that writes to the registers 0 and 1 of a unit, and one that reads register 2 and then
writes to it. -/
def twoClients : List Errand :=
  [⟨0, 3, .writeMultipleRegisters 0 [7, 8]⟩, ⟨1, 3, .readHoldingRegisters 2 1⟩,
    ⟨1, 3, .writeSingleRegister 2 4⟩]

/-- The second client is answered as if it were alone, and may as well come first. -/
theorem serves_independently_twoClients : Gallery.IsRun Gallery.copyingRun ∧
    let g := Gallery.after Gallery.copyingRun 5
    Service.answersTo (g.image 0).handle 1 g.memory twoClients =
        [.ok (.readHoldingRegisters [30]), .ok (.writeSingleRegister 2 4)] ∧
      Service.stateBehind (g.image 0).handle g.memory twoClients =
        Service.stateBehind (g.image 0).handle g.memory
          (twoClients.drop 1 ++ twoClients.take 1) := by
  have hapart : Errand.ApartBy Independent twoClients := by
    intro e he e' he' hne
    simp only [twoClients, List.mem_cons, List.not_mem_nil, or_false] at he he'
    rcases he with rfl | rfl | rfl <;> rcases he' with rfl | rfl | rfl <;>
      first
      | exact absurd rfl hne
      | exact .registers fun n h h' => by simp [Request.Touches] at h h'; omega
  have hsame : Errand.Interleaved twoClients (twoClients.drop 1 ++ twoClients.take 1) := by
    intro client
    by_cases hclient : client = 0
    · subst hclient
      rfl
    · simp [twoClients, Errand.ofClient, List.filter_cons, Ne.symm hclient]
  refine ⟨Gallery.isRun_copyingRun, ?_⟩
  intro g
  have hserves := serves_independently Gallery.isRun_copyingRun 5 0
  refine ⟨?_, (hserves.interleaved hapart hsame g.memory).2⟩
  rw [hserves.alone hapart]
  rfl

end ProcessImage

end Modbus
