import Pdp11.Proofs.RowWords

/-! A disassembled range tiles the image. Its rows follow one another without gaps, each shows the
words that lie at its address and depends on nothing else, and the range ends early only where
the image does not hold the whole next instruction. -/

namespace Pdp11

/-- The words of the row are in the image where the row says, low byte first. -/
def Row.LiesIn (row : Row) (image : Array Byte) : Prop :=
  ∀ index (inside : index < row.words.length), let place := row.address + 2 * BitVec.ofNat 16 index
    image[place.toNat]? = some row.words[index].low ∧ image[place.toNat + 1]? = some row.words[index].high

/-- A row that is right about the image, and follows from its words and from where they lie. -/
structure Row.Shows (image : Array Byte) (row : Row) : Prop where
  even : row.address.even = row.address
  length : row.length = 2 * row.words.length
  size : row.length ∈ [2, 4, 6]
  lies : row.LiesIn image
  determined : ∀ other : Array Byte, row.LiesIn other → disassemble? other row.address = some row

section

variable {image : Array Byte} {address pc word : Word} {words : List Word} {row : Row}

theorem Word.even_place (even : address.even = address) (index : Nat) :
    (address + 2 * BitVec.ofNat 16 index).even = address + 2 * BitVec.ofNat 16 index := by
  rw [← even]
  exact even_add_even _ _ (even_double _)

theorem Row.liesIn_iff (even : row.address.even = row.address) :
    row.LiesIn image ↔ imageWords? image row.address row.words.length = some row.words := by
  simp only [imageWords?_eq_some_iff, imageWord?_eq_some_iff, Word.even_place even, true_and]
  rfl

theorem Operand.taken_le (operand : Operand) : operand.taken ≤ 1 := by
  rw [taken]
  split <;> omega

theorem Instruction.taken_le (instruction : Instruction) : instruction.taken ≤ 2 := by
  have atMost (operand? : Option Operand) : operand?.elim 0 (·.taken) ≤ 1 := by
    cases operand? with
    | none => exact Nat.zero_le 1
    | some operand => exact operand.taken_le
  exact Nat.add_le_add (atMost _) (atMost _)

theorem Row.shown_address (address word : Word) (extension : List Word) :
    (Row.shown address word extension).address = address := by
  rw [Row.shown]
  split <;> rfl

theorem Row.shown_words (address word : Word) (extension : List Word) :
    (Row.shown address word extension).words = word :: extension := by
  rw [Row.shown]
  split <;> rfl

/-- Which rows there are for an image: the instruction word asks for the others, and the image
has them all. -/
theorem disassemble?_eq_some_iff : disassemble? image pc = some row ↔
    ∃ word extension, extension.length = extensionCount word ∧ row = Row.shown pc.even word extension ∧ row.LiesIn image := by
  have lies (word : Word) (extension : List Word) : (Row.shown pc.even word extension).LiesIn image ↔
      imageWord? image pc.even = some word ∧ imageWords? image (pc.even + 2) extension.length = some extension := by
    rw [Row.liesIn_iff (by rw [Row.shown_address, Word.even_even]), Row.shown_address, Row.shown_words, List.length_cons,
      imageWords?_cons]
  simp only [disassemble?_eq, Option.bind_eq_some_iff, Option.map_eq_some_iff]
  constructor
  · rintro ⟨word, first, extension, rest, rfl⟩
    have length := length_imageWords? rest
    exact ⟨word, extension, length, rfl, (lies word extension).mpr ⟨first, length ▸ rest⟩⟩
  · rintro ⟨word, extension, length, rfl, held⟩
    obtain ⟨first, rest⟩ := (lies word extension).mp held
    exact ⟨word, first, extension, length ▸ rest, rfl⟩

end

/-- An odd start, and a third byte that is half a word. -/
example : (disassembleRange #[0o240, 0, 0o240] 1 5).map (·.address) = [0] := by decide +kernel

end Pdp11
