/-
Exchanging the bus. A machine reaches its bus by reading and writing bytes alone, so a host may
put another bus in its place: as long as the two answer every read alike, nothing that can be
asked of the machine tells them apart. A bus that keeps a byte of its own for every address is
flat memory as far as any machine can see.
-/

import Cpu6502.Bus.Mapped
import Cpu6502.Proofs.Dialogue
import Cpu6502.Proofs.Session

namespace Cpu6502

/-! ### Buses that cannot be told apart -/

/-- Related buses answer alike, and go on being related whatever is read or written. -/
structure Bus.Alike {σ : Type u} {τ : Type v} [Bus σ] [Bus τ] (related : σ → τ → Prop) :
    Prop where
  value : ∀ left right, related left right →
    ∀ address, (Bus.read left address).1 = (Bus.read right address).1
  read : ∀ left right, related left right →
    ∀ address, related (Bus.read left address).2 (Bus.read right address).2
  write : ∀ left right, related left right →
    ∀ address value, related (Bus.write left address value) (Bus.write right address value)

namespace Bus.Alike

variable {σ : Type u} {τ : Type v} [Bus σ] [Bus τ] {related : σ → τ → Prop} {α : Type}

theorem hold (alike : Bus.Alike related) (dialogue : Dialogue α) {left : σ} {right : τ}
    (buses : related left right) :
    (dialogue.hold left).1 = (dialogue.hold right).1 ∧
      related (dialogue.hold left).2 (dialogue.hold right).2 ∧
      dialogue.records left = dialogue.records right := by
  induction dialogue generalizing left right with
  | done result => exact ⟨rfl, buses, rfl⟩
  | read address next ih =>
      have later := ih (Bus.read left address).1 (alike.read left right buses address)
      rwa [Dialogue.hold, Dialogue.hold, Dialogue.records, Dialogue.records,
        ← alike.value left right buses address]
  | write address value next ih => exact ih (alike.write left right buses address value)
  | note record next ih =>
      obtain ⟨result, after, records⟩ := ih buses
      exact ⟨result, after, congrArg (List.cons record) records⟩

end Bus.Alike

/-! ### Machines on such buses -/

def Processor.effectiveAddress (processor : Processor) (mode : Mode) :
    Dialogue (Address × Processor) :=
  (mode.dialogue processor.registers).bind fun address =>
    .done (address,
      { processor with registers := processor.registers.advance mode.operandBytes })

/-- An access from outside, which leaves the processor alone. -/
def Processor.beside {α : Type} (processor : Processor) (dialogue : Dialogue α) :
    Dialogue (α × Processor) :=
  dialogue.bind fun result => .done (result, processor)

namespace Machine

variable {σ : Type u} {τ : Type v} {α β : Type} {related : σ → τ → Prop}

/-- Two machines that are the same but for their journals and for buses that are related. -/
structure Matches (related : σ → τ → Prop) (left : Machine σ) (right : Machine τ) : Prop where
  registers : left.registers = right.registers
  state : left.state = right.state
  steps : left.steps = right.steps
  bus : related left.bus right.bus

theorem Matches.processor {left : Machine σ} {right : Machine τ}
    (matched : Matches related left right) : left.processor = right.processor := by
  rw [Machine.processor, Machine.processor, matched.registers, matched.state, matched.steps]

/-- What two machines make of the same request: the same answer, machines that match again, and
the same records. -/
structure Tandem (related : σ → τ → Prop) (left : Machine σ) (right : Machine τ)
    (first : α × Machine σ) (second : α × Machine τ) : Prop where
  answer : first.1 = second.1
  machines : Matches related first.2 second.2
  records : ∃ records : List Record,
    first.2.journal = records.foldl Journal.note left.journal ∧
      second.2.journal = records.foldl Journal.note right.journal

namespace Tandem

variable {left : Machine σ} {right : Machine τ} {first : α × Machine σ} {second : α × Machine τ}

theorem refl (matched : Matches related left right) (answer : α) :
    Tandem related left right (answer, left) (answer, right) :=
  ⟨rfl, matched, [], rfl, rfl⟩

/-- The answer may be told in another way. -/
theorem map (tandem : Tandem related left right first second) (tell : α → β) :
    Tandem related left right (tell first.1, first.2) (tell second.1, second.2) :=
  ⟨congrArg tell tandem.answer, tandem.machines, tandem.records⟩

theorem told (tandem : Tandem related left right first second) (answer : β) :
    Tandem related left right (answer, first.2) (answer, second.2) :=
  tandem.map fun _ => answer

theorem trans (tandem : Tandem related left right first second) {third : β × Machine σ}
    {fourth : β × Machine τ} (later : Tandem related first.2 second.2 third fourth) :
    Tandem related left right third fourth := by
  obtain ⟨records, leftNoted, rightNoted⟩ := tandem.records
  obtain ⟨more, leftLater, rightLater⟩ := later.records
  refine ⟨later.answer, later.machines, records ++ more, ?_, ?_⟩
  · rw [leftLater, leftNoted, List.foldl_append]
  · rw [rightLater, rightNoted, List.foldl_append]

theorem trans_option (tandem : Tandem related left right first second)
    {third : Option (β × Machine σ)} {fourth : Option (β × Machine τ)}
    (later : Option.Rel (Tandem related first.2 second.2) third fourth) :
    Option.Rel (Tandem related left right) third fourth := by
  cases later with
  | none => exact .none
  | some later => exact .some (tandem.trans later)

end Tandem

variable [Bus σ] [Bus τ] {left : Machine σ} {right : Machine τ}

theorem Matches.engage (matched : Matches related left right) (alike : Bus.Alike related)
    (dialogue : Dialogue (α × Processor)) :
    Tandem related left right (left.engage dialogue) (right.engage dialogue) := by
  obtain ⟨result, buses, records⟩ := alike.hold dialogue matched.bus
  refine ⟨congrArg Prod.fst result, ⟨?_, ?_, ?_, buses⟩, dialogue.records left.bus, rfl, ?_⟩
  · exact congrArg (fun held => held.2.registers) result
  · exact congrArg (fun held => held.2.state) result
  · exact congrArg (fun held => held.2.steps) result
  · rw [records]
    rfl

theorem Matches.step (matched : Matches related left right) (alike : Bus.Alike related) :
    Tandem related left right left.step right.step := by
  rw [step_eq_engage, step_eq_engage, ← matched.processor]
  exact matched.engage alike _

theorem Matches.settle (matched : Matches related left right) (alike : Bus.Alike related)
    (bound : Nat) :
    Option.Rel (Tandem related left right) (left.settle bound) (right.settle bound) := by
  induction bound generalizing left right with
  | zero => exact .none
  | succ bound ih =>
      have stepped := matched.step alike
      rw [Machine.settle, Machine.settle]
      generalize left.step = first at stepped ⊢
      generalize right.step = second at stepped ⊢
      obtain ⟨answer, leftNext⟩ := first
      obtain ⟨other, rightNext⟩ := second
      obtain rfl : answer = other := stepped.answer
      rcases answer with fault | state
      · exact .some (stepped.told _)
      · cases state with
        | halted => exact .some (stepped.told _)
        | running => exact stepped.trans_option (ih stepped.machines)

theorem Matches.runToHalt (matched : Matches related left right) (alike : Bus.Alike related)
    (bound : Nat) :
    Option.Rel (Tandem related left right) (left.runToHalt bound) (right.runToHalt bound) := by
  have settled := matched.settle alike bound
  rw [Machine.runToHalt, Machine.runToHalt, matched.steps]
  generalize left.settle bound = first at settled ⊢
  generalize right.settle bound = second at settled ⊢
  cases settled with
  | none => exact .none
  | @some first second ended =>
      obtain ⟨answer, leftFinal⟩ := first
      obtain ⟨other, rightFinal⟩ := second
      obtain rfl : answer = other := ended.answer
      have counted : leftFinal.steps = rightFinal.steps := ended.machines.steps
      rcases answer with fault | _
      · exact .some (ended.told _)
      · simp only [counted]
        exact .some (ended.told _)

theorem Matches.run (matched : Matches related left right) (alike : Bus.Alike related)
    (budget : Nat) : Tandem related left right (left.run budget) (right.run budget) := by
  rw [run_eq_engage, run_eq_engage, ← matched.processor]
  exact matched.engage alike _

theorem Matches.load (matched : Matches related left right) (alike : Bus.Alike related)
    (image : List Byte) : Tandem related left right (left.load image) (right.load image) := by
  rw [load_eq_engage, load_eq_engage, ← matched.processor]
  exact matched.engage alike _

theorem effectiveAddress_eq_engage (machine : Machine σ) (mode : Mode) :
    machine.effectiveAddress mode =
      machine.engage (machine.processor.effectiveAddress mode) := by
  simp only [effectiveAddress, Mode.resolve_eq_hold, engage, Processor.effectiveAddress,
    Dialogue.hold_bind, Dialogue.records_bind, Mode.records_dialogue]
  rfl

theorem Matches.beside (matched : Matches related left right) (alike : Bus.Alike related)
    (dialogue : Dialogue α) :
    Tandem related left right (left.engage (left.processor.beside dialogue))
      (right.engage (right.processor.beside dialogue)) := by
  rw [← matched.processor]
  exact matched.engage alike _

/-- Whatever a host asks of two machines that match, it cannot tell them apart. -/
theorem Matches.perform (matched : Matches related left right) (alike : Bus.Alike related)
    (operation : Operation) :
    Tandem related left right (left.perform operation) (right.perform operation) := by
  cases operation with
  | step => exact (matched.step alike).map Answer.stopped
  | run budget => exact (matched.run alike budget).map Answer.stopped
  | runToHalt bound =>
      have ended := matched.runToHalt alike bound
      rw [Machine.perform, Machine.perform]
      generalize left.runToHalt bound = first at ended ⊢
      generalize right.runToHalt bound = second at ended ⊢
      cases ended with
      | none => exact .refl matched Answer.unfinished
      | some tandem => exact tandem.map Answer.counted
  | reset => exact (matched.engage alike Processor.reset).told Answer.done
  | restart =>
      have fresh : Matches related (⟨{}, .running, 0, left.bus, left.journal⟩ : Machine σ)
          (⟨{}, .running, 0, right.bus, right.journal⟩ : Machine τ) :=
        ⟨rfl, rfl, rfl, matched.bus⟩
      have started := (fresh.engage alike Processor.reset).told Answer.done
      exact ⟨rfl, started.machines, started.records⟩
  | load image => exact (matched.load alike image).map Answer.loaded
  | effectiveAddress mode =>
      have moved := matched.engage alike (left.processor.effectiveAddress mode)
      rw [← effectiveAddress_eq_engage, matched.processor, ← effectiveAddress_eq_engage] at moved
      exact moved.map Answer.word
  | assign assignment =>
      refine ⟨rfl, ⟨?_, matched.state, matched.steps, matched.bus⟩, [], rfl, rfl⟩
      exact congrArg (fun registers => registers.assign assignment) matched.registers
  | peek address => exact (matched.beside alike (.read address .done)).map Answer.byte
  | peekWord address => exact (matched.beside alike (.readWord address)).map Answer.word
  | poke address value =>
      exact (matched.beside alike (.write address value (.done ()))).told Answer.done
  | pokeWord address word =>
      exact (matched.beside alike (.writeWord address word (.done ()))).told Answer.done

theorem Matches.performAll (matched : Matches related left right) (alike : Bus.Alike related)
    (operations : List Operation) :
    Tandem related left right (left.performAll operations) (right.performAll operations) := by
  induction operations generalizing left right with
  | nil => exact .refl matched []
  | cons operation rest ih =>
      have performed := matched.perform alike operation
      have later := ih performed.machines
      have answers := congrArg₂ List.cons performed.answer later.answer
      exact ⟨answers, (performed.trans later).machines, (performed.trans later).records⟩

/-- One of the two runs to the halt exactly when the other one does, and within the same bounds. -/
theorem Matches.runsToHalt (matched : Matches related left right) (alike : Bus.Alike related)
    (answer : Except Fault UInt64) :
    (∃ final, left.RunsToHalt answer final) ↔ ∃ final, right.RunsToHalt answer final := by
  unfold RunsToHalt
  rw [exists_comm, @exists_comm (Machine τ)]
  apply exists_congr
  intro bound
  have ended := matched.runToHalt alike bound
  generalize left.runToHalt bound = first at ended ⊢
  generalize right.runToHalt bound = second at ended ⊢
  cases ended with
  | none => simp
  | @some first second tandem =>
      obtain ⟨one, leftFinal⟩ := first
      obtain ⟨other, rightFinal⟩ := second
      obtain rfl : one = other := tandem.answer
      simp

end Machine

/-! ### Buses with a byte for every address -/

/-- Every address has a byte of its own, which is read there until another one is written. -/
structure Bus.Flat (σ : Type u) [Bus σ] : Prop where
  read_read : ∀ (bus : σ) (first second : Address),
    (Bus.read (Bus.read bus first).2 second).1 = (Bus.read bus second).1
  read_write : ∀ (bus : σ) (target address : Address) (value : Byte),
    (Bus.read (Bus.write bus target value) address).1 =
      if target = address then value else (Bus.read bus address).1

/-- What a bus would answer at every address. -/
def Bus.contents {σ : Type u} [Bus σ] (bus : σ) : Memory :=
  ⟨Vector.ofFn fun index => (Bus.read bus (UInt16.ofNat index.val)).1⟩

section

variable {σ : Type u} [Bus σ]

@[simp] theorem Bus.read_contents (bus : σ) (address : Address) :
    (Bus.contents bus).read address = (Bus.read bus address).1 := by
  rw [contents, Memory.read, Vector.getElem_ofFn]
  exact congrArg (fun named => (Bus.read bus named).1) (UInt16.ofNat_toNat)

/-- A flat bus goes on answering as the memory of its contents does. -/
theorem Bus.Flat.alike (flat : Bus.Flat σ) :
    Bus.Alike fun (bus : σ) (memory : Memory) => Bus.contents bus = memory where
  value := by
    rintro bus _ rfl address
    exact (Bus.read_contents bus address).symm
  read := by
    rintro bus _ rfl address
    apply Memory.ext
    intro other
    rw [Bus.read_contents, flat.read_read]
    exact (Bus.read_contents bus other).symm
  write := by
    rintro bus _ rfl address value
    apply Memory.ext
    intro other
    rw [Bus.read_contents, flat.read_write, ← Bus.read_contents]
    exact (Memory.read_write (Bus.contents bus) address other value).symm

/-- The same machine on the contents of its bus. -/
def Machine.onContents (machine : Machine σ) : Machine Memory :=
  ⟨machine.registers, machine.state, machine.steps, Bus.contents machine.bus, machine.journal⟩

/-- Buses may be exchanged. Machines that match give the same answers to every session, whatever
is asked in it, note the same records and match again in the end, and one of them runs to the
halt exactly when the other one does. On a flat bus a machine behaves as on flat memory. -/
theorem Machine.exchange_bus :
    (∀ {τ : Type v} [Bus τ] (related : σ → τ → Prop), Bus.Alike related →
      ∀ (left : Machine σ) (right : Machine τ), Matches related left right →
        (∀ operations : List Operation,
          (left.performAll operations).1 = (right.performAll operations).1 ∧
            Matches related (left.performAll operations).2 (right.performAll operations).2 ∧
            ∃ records : List Record,
              (left.performAll operations).2.journal =
                  records.foldl Journal.note left.journal ∧
                (right.performAll operations).2.journal =
                  records.foldl Journal.note right.journal) ∧
        ∀ answer, (∃ final, left.RunsToHalt answer final) ↔
          ∃ final, right.RunsToHalt answer final) ∧
    (Bus.Flat σ → ∀ (machine : Machine σ) (operations : List Operation),
      (machine.performAll operations).1 = (machine.onContents.performAll operations).1 ∧
        (machine.performAll operations).2.onContents =
          (machine.onContents.performAll operations).2) := by
  constructor
  · intro τ _ related alike left right matched
    refine ⟨?_, matched.runsToHalt alike⟩
    intro operations
    have tandem := matched.performAll alike operations
    exact ⟨tandem.answer, tandem.machines, tandem.records⟩
  · intro flat machine operations
    have matched : Matches (fun (bus : σ) (memory : Memory) => Bus.contents bus = memory)
        machine machine.onContents := ⟨rfl, rfl, rfl, rfl⟩
    obtain ⟨answers, ⟨registers, state, steps, bus⟩, records, left, right⟩ :=
      matched.performAll flat.alike operations
    have journal : (machine.performAll operations).2.journal =
        (machine.onContents.performAll operations).2.journal := left.trans right.symm
    refine ⟨answers, ?_⟩
    rw [onContents, registers, state, steps, bus, journal]

end

/-! ### Buses of both kinds -/

theorem Memory.flat : Bus.Flat Memory :=
  ⟨fun _ _ _ => rfl, Memory.read_write⟩

/-- To keep the accesses disturbs nothing. -/
theorem Traced.flat {σ : Type u} [Bus σ] (flat : Bus.Flat σ) : Bus.Flat (Traced σ) where
  read_read traced first second := flat.read_read traced.inner first second
  read_write traced target address value := flat.read_write traced.inner target address value

namespace Mapped

theorem write_eq (mapped : Mapped) (address : Address) (value : Byte) :
    Bus.write mapped address value =
      { mapped with
        memory :=
          if (mapped.select address).toNat < mapped.readOnlyFrom then
            mapped.memory.write (mapped.select address) value
          else mapped.memory } := by
  obtain ⟨memory, mask, readOnlyFrom⟩ := mapped
  change (if _ then _ else _) = _
  split <;> rfl

/-- Two memories behind the same decoder that agree wherever its lines lead. -/
structure Mirrors (left right : Mapped) : Prop where
  mask : left.mask = right.mask
  readOnlyFrom : left.readOnlyFrom = right.readOnlyFrom
  bytes : ∀ address,
    left.memory.read (left.select address) = right.memory.read (left.select address)

theorem Mirrors.select_eq {left right : Mapped} (mirrors : Mirrors left right)
    (address : Address) : left.select address = right.select address := by
  rw [select, select, mirrors.mask]

theorem alike : Bus.Alike Mirrors where
  value := by
    intro left right mirrors address
    change left.memory.read (left.select address) = right.memory.read (right.select address)
    rw [mirrors.bytes, mirrors.select_eq]
  read := fun left right mirrors address => mirrors
  write := by
    intro left right mirrors address value
    rw [write_eq, write_eq, ← mirrors.select_eq, ← mirrors.readOnlyFrom]
    refine ⟨mirrors.mask, rfl, ?_⟩
    intro other
    have same := mirrors.bytes other
    change (if _ then _ else _ : Memory).read (left.select other) =
      (if _ then _ else _ : Memory).read (left.select other)
    split
    · rw [Memory.read_write, Memory.read_write, same]
    · exact same

end Mapped

/-- The byte at 0x8000 lies behind no address of the decoder, which leads there to 0x0000. -/
theorem Machine.exchange_bus_mirrored :
    let decoder (memory : Memory) : Mapped :=
      { memory := memory, mask := 0x0FFF, readOnlyFrom := 0x0800 }
    let left : Machine Mapped := ⟨{}, .running, 0, decoder Memory.zero, .silent⟩
    let right : Machine Mapped :=
      ⟨{}, .running, 0, decoder (Memory.zero.write 0x8000 0xEA), .silent⟩
    let recording : Machine (Traced Memory) := ⟨{}, .running, 0, ⟨Memory.zero, #[]⟩, .silent⟩
    let session : List Operation :=
      [.load [0xE8], .run 3, .pokeWord 0xF7FF 0xBEEF, .peekWord 0x17FF, .restart, .step]
    Mapped.Mirrors left.bus right.bus ∧
      (left.performAll session).1 = (right.performAll session).1 ∧
      (left.performAll session).2.registers = (right.performAll session).2.registers ∧
      Bus.Flat (Traced Memory) ∧
      (recording.performAll session).1 = (recording.onContents.performAll session).1 := by
  intro decoder left right recording session
  have mirrors : Mapped.Mirrors left.bus right.bus := by
    refine ⟨rfl, rfl, ?_⟩
    intro address
    have apart : (0x8000 : Address) ≠ left.bus.select address := by
      intro same
      have below : (address &&& 0x0FFF).toNat ≤ 0x0FFF := by
        rw [UInt16.toNat_and]
        exact Nat.and_le_right
      rw [← show left.bus.select address = address &&& 0x0FFF from rfl, ← same] at below
      exact absurd below (by decide)
    exact (Memory.read_write_of_ne Memory.zero 0xEA apart).symm
  obtain ⟨answers, final, _⟩ :=
    (exchange_bus.1 Mapped.Mirrors Mapped.alike left right ⟨rfl, rfl, rfl, mirrors⟩).1 session
  have flat := Traced.flat Memory.flat
  exact ⟨mirrors, answers, final.registers, flat, (exchange_bus.{0, 0}.2 flat recording session).1⟩

end Cpu6502
