import Pdp11.Proofs.BoardRecord

/-! What holes and windows keep. A cycle is checked at the one address that it names, and a word
cycle names the first of its two bytes. A region is therefore airtight for bytes, and for words
as long as it does not begin between the two bytes of one. -/

namespace Pdp11

namespace FlatBoard

/-- The address lies in a hole. -/
def Unmapped (board : FlatBoard) (address : Word) : Prop := ∃ hole ∈ board.holes, hole.contains address = true

/-- The address lies in a read-only window. -/
def Protected (board : FlatBoard) (address : Word) : Prop := ∃ window ∈ board.windows, window.contains address = true

variable {board : FlatBoard} {address : Word}

theorem checkMapped_of_unmapped (unmapped : board.Unmapped address) :
    board.checkMapped address = .error (.noResponse address) := if_pos (List.any_eq_true.mpr unmapped)

theorem checkMapped_of_mapped (mapped : ¬board.Unmapped address) : board.checkMapped address = .ok () :=
  if_neg fun found => mapped (List.any_eq_true.mp found)

theorem checkWritable_of_unmapped (unmapped : board.Unmapped address) :
    board.checkWritable address = .error (.noResponse address) := by
  rw [checkWritable, checkMapped_of_unmapped unmapped]
  rfl

theorem checkWritable_of_mapped (mapped : ¬board.Unmapped address) :
    board.checkWritable address =
      if board.windows.any (·.contains address) then .error (.rejected address) else .ok () := by
  rw [checkWritable, checkMapped_of_mapped mapped]
  rfl

theorem checkWritable_of_protected (mapped : ¬board.Unmapped address) (guarded : board.Protected address) :
    board.checkWritable address = .error (.rejected address) := by
  rw [checkWritable_of_mapped mapped, if_pos (List.any_eq_true.mpr guarded)]

theorem checkWritable_of_writable (mapped : ¬board.Unmapped address) (writable : ¬board.Protected address) :
    board.checkWritable address = .ok () := by
  rw [checkWritable_of_mapped mapped, if_neg fun found => writable (List.any_eq_true.mp found)]

end FlatBoard

/-- A cycle that the processor may ask of a board. -/
inductive BusCycle where
  | readWord (address : Word)
  | readByte (address : Word)
  | writeWord (address value : Word)
  | writeByte (address : Word) (value : Byte)

namespace BusCycle

def address : BusCycle → Word
  | readWord address | readByte address | writeWord address _ | writeByte address _ => address

def isWrite : BusCycle → Bool
  | readWord _ | readByte _ => false
  | writeWord _ _ | writeByte _ _ => true

/-- The processor issues word cycles at even addresses only. -/
def Issued : BusCycle → Prop
  | readWord address | writeWord address _ => address.even = address
  | readByte _ | writeByte _ _ => True

/-- The bytes that a cycle is about. -/
def touches : BusCycle → List Word
  | readWord address | writeWord address _ => [address, address + 1]
  | readByte address | writeByte address _ => [address]

/-- What a cycle puts at an address if it succeeds. -/
def puts? (cycle : BusCycle) (place : Word) : Option Byte :=
  match cycle with
  | readWord _ | readByte _ => none
  | writeWord address value =>
    if address = place then some value.low else if address + 1 = place then some value.high else none
  | writeByte address value => if address = place then some value else none

/-- How a cycle ends, and the board after it. -/
def perform (board : FlatBoard) : BusCycle → Except BusError Unit × FlatBoard
  | readWord address => (Board.readWord address board).map (·.map fun _ => ()) id
  | readByte address => (Board.readByte address board).map (·.map fun _ => ()) id
  | writeWord address value => Board.writeWord address value board
  | writeByte address value => Board.writeByte address value board

/-- Memory after a cycle that succeeds. -/
def stored (memory : Memory) : BusCycle → Memory
  | readWord _ | readByte _ => memory
  | writeWord address value => memory.setWord address value
  | writeByte address value => memory.setByte address value

theorem byte_stored {cycle : BusCycle} (issued : cycle.Issued) (memory : Memory) (place : Word) :
    (cycle.stored memory).byte place = (cycle.puts? place).getD (memory.byte place) := by
  cases cycle with
  | readWord | readByte => rfl
  | writeByte address value =>
    rw [stored, Memory.byte_setByte, puts?, eq_comm, apply_ite (Option.getD · _)]
    rfl
  | writeWord address value =>
    have even : address.even = address := issued
    rw [stored, Memory.setWord, even, Memory.byte_setByte, Memory.byte_setByte, puts?]
    by_cases first : address = place
    · have apart : ¬address + 1 = place := by bv_omega
      rw [if_neg apart, if_pos first, if_pos first]
      rfl
    · by_cases second : address + 1 = place
      · rw [if_pos second, if_neg first, if_pos second]
        rfl
      · rw [if_neg second, if_neg first, if_neg first, if_neg second]
        rfl

/-- What a cycle is checked for. -/
def check (board : FlatBoard) (cycle : BusCycle) : Except BusError Unit :=
  if cycle.isWrite then board.checkWritable cycle.address else board.checkMapped cycle.address

theorem perform_eq (board : FlatBoard) (cycle : BusCycle) :
    cycle.perform board = match cycle.check board with
      | .error failure => (.error failure, board)
      | .ok () => (.ok (), { board with memory := cycle.stored board.memory }) := by
  cases cycle with
  | readWord address | readByte address =>
    change (((board.checkMapped address).map _).map _, board) = match board.checkMapped address with
      | .error failure => (.error failure, board)
      | .ok () => (.ok (), board)
    cases board.checkMapped address <;> rfl
  | writeWord | writeByte => rfl

/-- Everything that a cycle can come to, by the address that it names. -/
theorem perform_cases (board : FlatBoard) (cycle : BusCycle) :
    (board.Unmapped cycle.address ∧ cycle.perform board = (.error (.noResponse cycle.address), board)) ∨
    (¬board.Unmapped cycle.address ∧ cycle.isWrite = true ∧ board.Protected cycle.address ∧
      cycle.perform board = (.error (.rejected cycle.address), board)) ∨
    (¬board.Unmapped cycle.address ∧ (cycle.isWrite = true → ¬board.Protected cycle.address) ∧
      cycle.perform board = (.ok (), { board with memory := cycle.stored board.memory })) := by
  rw [perform_eq]
  by_cases unmapped : board.Unmapped cycle.address
  · have failed : cycle.check board = .error (.noResponse cycle.address) := by
      rw [check, FlatBoard.checkWritable_of_unmapped unmapped, FlatBoard.checkMapped_of_unmapped unmapped, ite_self]
    rw [failed]
    exact .inl ⟨unmapped, rfl⟩
  · by_cases refused : cycle.isWrite = true ∧ board.Protected cycle.address
    · have failed : cycle.check board = .error (.rejected cycle.address) := by
        rw [check, if_pos refused.1, FlatBoard.checkWritable_of_protected unmapped refused.2]
      rw [failed]
      exact .inr (.inl ⟨unmapped, refused.1, refused.2, rfl⟩)
    · have passed : cycle.check board = .ok () := by
        rw [check]
        split
        · next writes => exact FlatBoard.checkWritable_of_writable unmapped fun guarded => refused ⟨writes, guarded⟩
        · exact FlatBoard.checkMapped_of_mapped unmapped
      rw [passed]
      exact .inr (.inr ⟨unmapped, fun writes guarded => refused ⟨writes, guarded⟩, rfl⟩)

theorem address_touched (cycle : BusCycle) : cycle.address ∈ cycle.touches := by
  cases cycle <;> exact List.mem_cons_self

/-- A byte that a cycle is about is the one that it names, or the other one of its word. -/
theorem touched_cases {cycle : BusCycle} (issued : cycle.Issued) {place : Word} (touched : place ∈ cycle.touches) :
    place = cycle.address ∨ place = cycle.address + 1 ∧ cycle.address.even = cycle.address := by
  cases cycle with
  | readByte | writeByte => exact .inl (List.mem_singleton.mp touched)
  | readWord | writeWord =>
    rcases List.mem_cons.mp touched with same | other
    · exact .inl same
    · exact .inr ⟨List.mem_singleton.mp other, issued⟩

/-- Only a write puts anything anywhere, and only where it goes. -/
theorem touched_of_puts? {cycle : BusCycle} {place : Word} {value : Byte} (puts : cycle.puts? place = some value) :
    cycle.isWrite = true ∧ place ∈ cycle.touches := by
  cases cycle with
  | readWord | readByte => cases puts
  | writeByte address =>
    refine ⟨rfl, ?_⟩
    rw [puts?] at puts
    split at puts
    · next same => exact same ▸ List.mem_cons_self
    · cases puts
  | writeWord address =>
    refine ⟨rfl, ?_⟩
    rw [puts?] at puts
    split at puts
    · next same => exact same ▸ List.mem_cons_self
    · split at puts
      · next same => exact same ▸ List.mem_cons_of_mem _ List.mem_cons_self
      · cases puts

/-- What a cycle does to memory: nothing if it fails, and otherwise just what it puts. -/
structure Exact (board : FlatBoard) (cycle : BusCycle) : Prop where
  failed : ∀ failure, (cycle.perform board).1 = .error failure → (cycle.perform board).2 = board
  done : (cycle.perform board).1 = .ok () → ∀ place,
    (cycle.perform board).2.memory.byte place = (cycle.puts? place).getD (board.memory.byte place)

theorem exact_of_issued {cycle : BusCycle} (issued : cycle.Issued) (board : FlatBoard) : cycle.Exact board := by
  rcases cycle.perform_cases board with ⟨_, ended⟩ | ⟨_, _, _, ended⟩ | ⟨_, _, ended⟩ <;> constructor <;> rw [ended]
  · exact fun _ _ => rfl
  · exact nofun
  · exact fun _ _ => rfl
  · exact nofun
  · exact nofun
  · exact fun _ place => byte_stored issued board.memory place

/-- A cycle that comes upon a hole goes unanswered, and a write that comes upon a window and no
hole is refused. -/
structure Guarded (board : FlatBoard) (cycle : BusCycle) : Prop where
  unanswered : ∀ place ∈ cycle.touches, board.Unmapped place →
    (cycle.perform board).1 = .error (.noResponse cycle.address)
  refused : cycle.isWrite = true → (∀ place ∈ cycle.touches, ¬board.Unmapped place) →
    ∀ place ∈ cycle.touches, board.Protected place → (cycle.perform board).1 = .error (.rejected cycle.address)

end BusCycle

namespace FlatBoard

/-- The board after a number of cycles. -/
def run (board : FlatBoard) (cycles : List BusCycle) : FlatBoard :=
  cycles.foldl (fun board cycle => (cycle.perform board).2) board

/-- Whatever cycles are issued, holes and windows guard every byte of theirs. -/
structure Airtight (board : FlatBoard) : Prop where
  guarded : ∀ earlier (cycle : BusCycle), (∀ one ∈ earlier, BusCycle.Issued one) → cycle.Issued →
    cycle.Guarded (board.run earlier)
  kept : ∀ cycles, (∀ one ∈ cycles, BusCycle.Issued one) → ∀ place, board.Unmapped place ∨ board.Protected place →
    (board.run cycles).memory.byte place = board.memory.byte place

/-- No word has its second byte guarded and its first one not. A hole at the second byte needs a
hole at the first; behind a window either will do. -/
structure CoversWords (board : FlatBoard) : Prop where
  holes : ∀ address : Word, address.even = address → board.Unmapped (address + 1) → board.Unmapped address
  windows : ∀ address : Word, address.even = address → board.Protected (address + 1) →
    board.Unmapped address ∨ board.Protected address

/-- The same holes and windows. -/
structure SameRegions (board other : FlatBoard) : Prop where
  holes : other.holes = board.holes
  windows : other.windows = board.windows

theorem perform_regions (board : FlatBoard) (cycle : BusCycle) : board.SameRegions (cycle.perform board).2 := by
  rcases cycle.perform_cases board with ⟨_, ended⟩ | ⟨_, _, _, ended⟩ | ⟨_, _, ended⟩ <;> rw [ended] <;> exact ⟨rfl, rfl⟩

variable {board other : FlatBoard} {place : Word}

theorem SameRegions.unmapped (same : board.SameRegions other) : other.Unmapped place ↔ board.Unmapped place := by
  rw [Unmapped, Unmapped, same.holes]

theorem SameRegions.protected (same : board.SameRegions other) : other.Protected place ↔ board.Protected place := by
  rw [Protected, Protected, same.windows]

theorem SameRegions.coversWords (same : board.SameRegions other) (covers : board.CoversWords) : other.CoversWords where
  holes address even beyond := same.unmapped.mpr (covers.holes address even (same.unmapped.mp beyond))
  windows address even beyond :=
    (covers.windows address even (same.protected.mp beyond)).imp same.unmapped.mpr same.protected.mpr

theorem CoversWords.run (covers : board.CoversWords) (cycles : List BusCycle) : (board.run cycles).CoversWords := by
  induction cycles generalizing board with
  | nil => exact covers
  | cons cycle rest ih => exact ih ((board.perform_regions cycle).coversWords covers)

theorem CoversWords.unmapped_address (covers : board.CoversWords) {cycle : BusCycle} (issued : cycle.Issued)
    (touched : place ∈ cycle.touches) (unmapped : board.Unmapped place) : board.Unmapped cycle.address := by
  rcases BusCycle.touched_cases issued touched with rfl | ⟨rfl, even⟩
  · exact unmapped
  · exact covers.holes _ even unmapped

theorem CoversWords.protected_address (covers : board.CoversWords) {cycle : BusCycle} (issued : cycle.Issued)
    (touched : place ∈ cycle.touches) (guarded : board.Protected place) :
    board.Unmapped cycle.address ∨ board.Protected cycle.address := by
  rcases BusCycle.touched_cases issued touched with rfl | ⟨rfl, even⟩
  · exact .inr guarded
  · exact covers.windows _ even guarded

theorem CoversWords.guarded (covers : board.CoversWords) {cycle : BusCycle} (issued : cycle.Issued) :
    cycle.Guarded board := by
  rcases cycle.perform_cases board with ⟨unmapped, ended⟩ | ⟨mapped, _, _, ended⟩ | ⟨mapped, writable, ended⟩
  · exact ⟨fun _ _ _ => congrArg Prod.fst ended,
      fun _ clear => absurd unmapped (clear _ cycle.address_touched)⟩
  · exact ⟨fun place touched unmapped => absurd (covers.unmapped_address issued touched unmapped) mapped,
      fun _ _ _ _ _ => congrArg Prod.fst ended⟩
  · refine ⟨fun place touched unmapped => absurd (covers.unmapped_address issued touched unmapped) mapped,
      fun writes _ place touched guarded => ?_⟩
    rcases covers.protected_address issued touched guarded with unmapped | guarded
    · exact absurd unmapped mapped
    · exact absurd guarded (writable writes)

/-- One cycle leaves a guarded byte as it is. -/
theorem CoversWords.keeps (covers : board.CoversWords) {cycle : BusCycle} (issued : cycle.Issued)
    (sealed : board.Unmapped place ∨ board.Protected place) :
    (cycle.perform board).2.memory.byte place = board.memory.byte place := by
  rcases cycle.perform_cases board with ⟨_, ended⟩ | ⟨_, _, _, ended⟩ | ⟨mapped, writable, ended⟩
  · rw [ended]
  · rw [ended]
  · rw [ended, BusCycle.byte_stored issued]
    cases put : cycle.puts? place with
    | none => rfl
    | some value =>
      obtain ⟨writes, touched⟩ := BusCycle.touched_of_puts? put
      have atAddress : board.Unmapped cycle.address ∨ board.Protected cycle.address := by
        rcases sealed with unmapped | guarded
        · exact .inl (covers.unmapped_address issued touched unmapped)
        · exact covers.protected_address issued touched guarded
      exact absurd atAddress (not_or.mpr ⟨mapped, writable writes⟩)

theorem CoversWords.keeps_run (covers : board.CoversWords) {cycles : List BusCycle}
    (issued : ∀ one ∈ cycles, BusCycle.Issued one) (sealed : board.Unmapped place ∨ board.Protected place) :
    (board.run cycles).memory.byte place = board.memory.byte place := by
  induction cycles generalizing board with
  | nil => rfl
  | cons cycle rest ih =>
    have regions := board.perform_regions cycle
    have later := ih (regions.coversWords covers) (fun one member => issued one (List.mem_cons_of_mem _ member))
      (sealed.imp regions.unmapped.mpr regions.protected.mpr)
    exact later.trans (covers.keeps (issued cycle List.mem_cons_self) sealed)

theorem Airtight.coversWords (airtight : board.Airtight) : board.CoversWords := by
  -- A read of the word shows that its hole is whole, a write that its window is.
  have guarded {cycle : BusCycle} (issued : cycle.Issued) : cycle.Guarded board := airtight.guarded [] cycle nofun issued
  have holes : ∀ address : Word, address.even = address → board.Unmapped (address + 1) → board.Unmapped address := by
    intro address even unmapped
    have unanswered := (@guarded (.readWord address) even).unanswered (address + 1)
      (List.mem_cons_of_mem _ List.mem_cons_self) unmapped
    rcases BusCycle.perform_cases board (.readWord address) with ⟨found, _⟩ | ⟨_, reads, _⟩ | ⟨_, _, ended⟩
    · exact found
    · cases reads
    · rw [ended] at unanswered
      cases unanswered
  refine ⟨holes, fun address even guarding => ?_⟩
  rcases BusCycle.perform_cases board (.writeWord address 0) with ⟨found, _⟩ | ⟨_, _, found, _⟩ | ⟨mapped, _, ended⟩
  · exact .inl found
  · exact .inr found
  · have clear : ∀ place ∈ (BusCycle.writeWord address 0).touches, ¬board.Unmapped place := by
      intro place touched unmapped
      rcases @BusCycle.touched_cases (.writeWord address 0) even _ touched with rfl | ⟨rfl, _⟩
      · exact mapped unmapped
      · exact mapped (holes address even unmapped)
    have refused := (@guarded (.writeWord address 0) even).refused rfl clear (address + 1)
      (List.mem_cons_of_mem _ List.mem_cons_self) guarding
    rw [ended] at refused
    cases refused

/-- Holes and windows are airtight exactly when a word whose second byte is in a hole has its first
byte in one too, and a word whose second byte is behind a window has its first byte behind one or in
a hole. A region may thus begin inside a word, as long as another one covers the byte before it. In
any case a cycle that fails changes nothing, and a write that succeeds changes the bytes that it is
about. -/
theorem airtight_iff_coversWords (board : FlatBoard) :
    (board.Airtight ↔ board.CoversWords) ∧ ∀ cycle : BusCycle, cycle.Issued → cycle.Exact board := by
  refine ⟨⟨Airtight.coversWords, fun covers => ⟨?_, ?_⟩⟩, fun _ issued => BusCycle.exact_of_issued issued board⟩
  · intro earlier cycle _ issued
    exact (covers.run earlier).guarded issued
  · intro cycles issued place sealed
    exact covers.keeps_run issued sealed

/-- A hole that begins at the second byte of a word. -/
def splitHole : FlatBoard := FlatBoard.unmap {} ⟨0o1001, 0o1777⟩

/-- A write of that word reaches into the hole. -/
theorem not_airtight_splitHole : ¬splitHole.Airtight := by
  intro airtight
  have kept := airtight.kept [.writeWord 0o1000 0o177777] (by
    intro one member
    rw [List.mem_singleton.mp member]
    exact show Word.even 0o1000 = 0o1000 by decide) 0o1001 (.inl ⟨⟨0o1001, 0o1777⟩, List.mem_cons_self, by decide⟩)
  have reached : (splitHole.run [.writeWord 0o1000 0o177777]).memory.byte 0o1001 = 0o377 := by decide +kernel
  have before : splitHole.memory.byte 0o1001 = 0 := by decide +kernel
  rw [reached, before] at kept
  exact absurd kept (by decide)

end FlatBoard
end Pdp11
