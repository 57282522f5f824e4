/-
Loading an image into flat memory, read back address by address. An address is in the image
when its distance from the start of the program window, taken around the address space, is
below the length of the image; the reset vector goes over whatever it meets there. So a load
is fixed by its image and by the bytes around it, and a load that is refused changes nothing.
-/

import Cpu6502.Machine
import Cpu6502.Proofs.Words

namespace Cpu6502

private theorem toNat_sub_add_one {address start : Address} (different : address ≠ start) :
    (address - start).toNat = (address - (start + 1)).toNat + 1 := by
  have distinct : address.toNat ≠ start.toNat := fun same => different (UInt16.toNat_inj.mp same)
  have addressBound := address.toNat_lt
  have startBound := start.toNat_lt
  simp only [UInt16.toNat_sub, UInt16.toNat_add, UInt16.reduceToNat]
  omega

private theorem toNat_sub_self_add_one (start : Address) :
    (start - (start + 1)).toNat = 65535 := by
  have bound := start.toNat_lt
  simp only [UInt16.toNat_sub, UInt16.toNat_add, UInt16.reduceToNat]
  omega

/-- No byte of at most 65536 is written over by another, so each is read back. Seen from behind,
the first one is the last of the address space, where the others do not reach. -/
theorem Memory.read_writeAll (memory : Memory) (start address : Address) (values : List Byte)
    (fits : values.length ≤ 65536) :
    (Bus.writeAll memory start values).read address =
      (values[(address - start).toNat]?).getD (memory.read address) := by
  induction values generalizing memory start with
  | nil => rfl
  | cons value rest ih =>
      rw [List.length_cons] at fits
      have later : (Bus.writeAll memory start (value :: rest)).read address =
          (rest[(address - (start + 1)).toNat]?).getD ((memory.write start value).read address) :=
        ih (memory.write start value) (start + 1) (by omega)
      rw [later]
      by_cases same : address = start
      · subst same
        have beyond : rest[(address - (address + 1)).toNat]? = none := by
          rw [toNat_sub_self_add_one]
          exact List.getElem?_eq_none (by omega)
        have first : (address - address).toNat = 0 := by
          rw [UInt16.sub_self]
          rfl
        rw [beyond, first, Option.getD_none, Memory.read_write_same, List.getElem?_cons_zero,
          Option.getD_some]
      · rw [Memory.read_write_of_ne _ _ (Ne.symm same), toNat_sub_add_one same,
          List.getElem?_cons_succ]

def windowAddress (offset : Nat) : Address :=
  programStart + UInt16.ofNat offset

theorem windowAddress_add (offset count : Nat) :
    windowAddress offset + UInt16.ofNat count = windowAddress (offset + count) := by
  rw [windowAddress, windowAddress, UInt16.ofNat_add, UInt16.add_assoc]

theorem windowAddress_sub (offset : Nat) (bound : offset < 65536) :
    (windowAddress offset - programStart).toNat = offset := by
  rw [windowAddress, UInt16.add_comm, UInt16.add_sub_cancel]
  exact UInt16.toNat_ofNat_of_lt' bound

theorem windowAddress_toNat_sub (address : Address) :
    windowAddress (address - programStart).toNat = address := by
  rw [windowAddress, UInt16.ofNat_toNat, UInt16.add_comm, UInt16.sub_add_cancel]

/-- The memory after an image has been placed and the vector aimed at it. -/
def Memory.withImage (memory : Memory) (image : List Byte) : Memory :=
  Bus.writeWord (Bus.writeAll memory programStart image) resetVector programStart

theorem Memory.read_withImage (memory : Memory) (image : List Byte) (address : Address)
    (fits : image.length ≤ programCapacity) :
    (memory.withImage image).read address =
      if address = 0xFFFC then 0x00
      else if address = 0xFFFD then 0x80
      else (image[(address - programStart).toNat]?).getD (memory.read address) := by
  have room : image.length ≤ 65536 := by
    unfold programCapacity at fits
    omega
  rw [withImage]
  by_cases low : address = 0xFFFC
  · subst low
    exact read_writeWord_low _ resetVector programStart
  · by_cases high : address = 0xFFFD
    · subst high
      exact read_writeWord_high _ resetVector programStart
    · rw [read_writeWord_of_ne _ resetVector _ low high, read_writeAll memory _ _ image room,
        if_neg low, if_neg high]

theorem Memory.read_withImage_of_ne (memory : Memory) {image : List Byte} {address : Address}
    (fits : image.length ≤ programCapacity) (low : address ≠ 0xFFFC) (high : address ≠ 0xFFFD) :
    (memory.withImage image).read address =
      (image[(address - programStart).toNat]?).getD (memory.read address) := by
  rw [read_withImage memory image _ fits, if_neg low, if_neg high]

/-- An image stands in memory with the vector over it, and nothing else has changed. -/
structure Memory.Placed (image : List Byte) (before after : Memory) : Prop where
  vectorLow : after.read 0xFFFC = 0x00
  vectorHigh : after.read 0xFFFD = 0x80
  inside : ∀ index (within : index < image.length), windowAddress index ≠ 0xFFFC →
    windowAddress index ≠ 0xFFFD → after.read (windowAddress index) = image[index]
  outside : ∀ address, address ≠ 0xFFFC → address ≠ 0xFFFD →
    (∀ index < image.length, address ≠ windowAddress index) →
      after.read address = before.read address

theorem Memory.placed_withImage (memory : Memory) {image : List Byte}
    (fits : image.length ≤ programCapacity) : Placed image memory (memory.withImage image) where
  vectorLow := by
    rw [read_withImage memory image _ fits]
    rfl
  vectorHigh := by
    rw [read_withImage memory image _ fits]
    rfl
  inside := by
    intro index within low high
    have bound : index < 65536 := by
      unfold programCapacity at fits
      omega
    rw [read_withImage_of_ne memory fits low high, windowAddress_sub _ bound,
      List.getElem?_eq_getElem within, Option.getD_some]
  outside := by
    intro address low high apart
    have beyond : image[(address - programStart).toNat]? = none := by
      apply List.getElem?_eq_none
      apply Nat.le_of_not_lt
      intro within
      exact apart _ within (windowAddress_toNat_sub address).symm
    rw [read_withImage_of_ne memory fits low high, beyond, Option.getD_none]

/-- An image hides all of a shorter one that was placed before it. -/
theorem Memory.withImage_withImage (memory : Memory) {earlier image : List Byte}
    (shorter : earlier.length ≤ image.length) (fits : image.length ≤ programCapacity) :
    (memory.withImage earlier).withImage image = memory.withImage image := by
  have placed := memory.placed_withImage fits
  have again := (memory.withImage earlier).placed_withImage fits
  ext address
  by_cases low : address = 0xFFFC
  · rw [low, again.vectorLow, placed.vectorLow]
  · by_cases high : address = 0xFFFD
    · rw [high, again.vectorHigh, placed.vectorHigh]
    · rw [read_withImage_of_ne _ fits low high, read_withImage_of_ne _ fits low high,
        read_withImage_of_ne _ (Nat.le_trans shorter fits) low high]
      cases covered : image[(address - programStart).toNat]? with
      | some value => rfl
      | none =>
          have beyond : image.length ≤ (address - programStart).toNat :=
            List.getElem?_eq_none_iff.mp covered
          rw [List.getElem?_eq_none (Nat.le_trans shorter beyond)]
          rfl

/-- The machine that a successful load leaves. -/
def Machine.loaded (machine : Machine Memory) (image : List Byte) : Machine Memory where
  registers := Registers.atReset programStart
  state := .running
  steps := 0
  bus := machine.bus.withImage image
  journal :=
    (machine.journal.note (.loaded image.length programStart)).note (.reset programStart)

theorem Machine.load_of_fits (machine : Machine Memory) {image : List Byte}
    (fits : image.length ≤ programCapacity) :
    machine.load image = (.ok (), machine.loaded image) := by
  obtain ⟨registers, state, steps, memory, journal⟩ := machine
  have vector : Bus.readWord (memory.withImage image) resetVector =
      (programStart, memory.withImage image) :=
    Prod.ext (Memory.readWord_writeWord _ resetVector programStart) rfl
  rw [load, if_pos fits]
  change (Except.ok (), reset ⟨registers, state, steps, memory.withImage image, _⟩) = _
  rw [reset, vector]
  rfl

theorem Machine.load_of_not_fits (machine : Machine Memory) {image : List Byte}
    (large : programCapacity < image.length) :
    machine.load image = (.error (.imageTooLarge image.length programCapacity), machine) := by
  rw [load, if_neg (Nat.not_le.mpr large)]

/-- A load of an image that is too large changes nothing. Any other load leaves a machine that
is fixed by the image and by the bytes around it, so that nothing is left of a load of a shorter
image. -/
theorem Machine.load_exact (machine : Machine Memory) (image : List Byte) :
    (0x8000 < image.length →
      machine.load image = (.error (.imageTooLarge image.length 0x8000), machine)) ∧
    (image.length ≤ 0x8000 →
      (machine.load image).1 = .ok () ∧
        Memory.Placed image machine.bus (machine.load image).2.bus ∧
        (machine.load image).2.registers =
          { pc := 0x8000, sp := 0, a := 0, x := 0, y := 0,
            flags := ⟨false, false, false, false, false, false, false⟩ } ∧
        (machine.load image).2.state = .running ∧ (machine.load image).2.steps = 0) ∧
    ∀ earlier : List Byte, earlier.length ≤ image.length → image.length ≤ 0x8000 →
      let once := machine.load image
      let twice := (machine.load earlier).2.load image
      twice.1 = once.1 ∧ twice.2.registers = once.2.registers ∧ twice.2.state = once.2.state ∧
        twice.2.steps = once.2.steps ∧ twice.2.bus = once.2.bus := by
  refine ⟨machine.load_of_not_fits, ?_, ?_⟩
  · intro fits
    rw [load_of_fits machine fits]
    exact ⟨rfl, machine.bus.placed_withImage fits, rfl, rfl, rfl⟩
  · intro earlier shorter fits
    rw [load_of_fits machine fits, load_of_fits machine (Nat.le_trans shorter fits),
      load_of_fits _ fits]
    exact ⟨rfl, rfl, rfl, rfl, machine.bus.withImage_withImage shorter fits⟩

/-- An image that fills the window gives up two bytes to the vector; one byte more does not
fit. -/
theorem Machine.load_exact_full_window :
    let machine : Machine Memory := ⟨{ y := 3 }, .halted, 9, Memory.zero.write 0x7FFF 1, .silent⟩
    let image : List Byte := List.replicate 0x8000 0xA9
    (machine.load image).1 = .ok () ∧ (machine.load image).2.bus.read 0xFFFB = 0xA9 ∧
      (machine.load image).2.bus.read 0xFFFC = 0x00 ∧
      (machine.load image).2.bus.read 0xFFFF = 0xA9 ∧
      (machine.load image).2.bus.read 0x7FFF = 1 ∧
      (machine.load (0xEA :: image)).1 = .error (.imageTooLarge 0x8001 0x8000) ∧
      ((machine.load [0xE8]).2.load image).2.bus = (machine.load image).2.bus := by
  intro machine image
  have length : image.length = 0x8000 := List.length_replicate
  have filled (index : Nat) (within : index < image.length) : image[index] = 0xA9 :=
    List.getElem_replicate within
  clear_value image
  have fits : image.length ≤ 0x8000 := Nat.le_of_eq length
  have longer : (0xEA :: image).length = 0x8001 := by
    rw [List.length_cons, length]
  have refused := (load_exact machine (0xEA :: image)).1 (by rw [longer]; decide)
  rw [longer] at refused
  obtain ⟨_, loads, replaces⟩ := load_exact machine image
  obtain ⟨answer, placed, _⟩ := loads fits
  obtain ⟨_, _, _, _, bus⟩ := replaces [0xE8] (by rw [length]; decide) fits
  refine ⟨answer, ?_, placed.vectorLow, ?_, ?_, congrArg Prod.fst refused, bus⟩
  · have last : 0x7FFB < image.length := by
      rw [length]
      decide
    exact (placed.inside 0x7FFB last (by decide) (by decide)).trans (filled _ last)
  · have last : 0x7FFF < image.length := by
      rw [length]
      decide
    exact (placed.inside 0x7FFF last (by decide) (by decide)).trans (filled _ last)
  · have before : ∀ index < image.length, (0x7FFF : Address) ≠ windowAddress index := by
      intro index within same
      have distance := windowAddress_sub index (by omega)
      rw [← same] at distance
      have far : ((0x7FFF : Address) - programStart).toNat = 65535 := by decide
      omega
    exact (placed.outside 0x7FFF (by decide) (by decide) before).trans
      (Memory.read_write_same _ _ _)

end Cpu6502
