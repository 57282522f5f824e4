/-
Programs that store nothing. Their memory stays as it is, so each address leads on to one and the
same next address, whatever the registers hold by then. A machine that has taken as many steps as
there are addresses and still runs has been somewhere twice, and so it goes round for ever.
-/

import Cpu6502.Proofs.Accounting
import Cpu6502.Proofs.Control
import Mathlib.Data.Finset.Card

namespace Cpu6502

def Instruction.Stores (instruction : Instruction) : Prop :=
  instruction.mnemonic = .sta ∨ instruction.mnemonic = .stx

namespace Machine

variable {machine : Machine Memory}

/-- The first `count` steps execute no store. -/
def Storeless (machine : Machine Memory) (count : Nat) : Prop :=
  ∀ instruction ∈ machine.executed count, ¬ instruction.Stores

theorem store?_of_not_stores (quiet : ∀ instruction ∈ machine.next?, ¬ instruction.Stores) :
    machine.store? = none := by
  cases state : machine.state with
  | halted => exact store?_of_halted state
  | running =>
      cases decoded : Instruction.decode machine.opcode with
      | none => exact store?_of_undecoded decoded
      | some instruction =>
          have next : instruction ∈ machine.next? := (next?_of_running state).trans decoded
          have quiet := quiet instruction next
          rw [store?_of_decoded state decoded, Instruction.stored?]
          cases named : instruction.mnemonic with
          | sta => exact absurd (Or.inl named) quiet
          | stx => exact absurd (Or.inr named) quiet
          | lda | ldx | tax | inx | ret => rfl

theorem bus_step_of_not_stores (quiet : ∀ instruction ∈ machine.next?, ¬ instruction.Stores) :
    machine.step.2.bus = machine.bus := by
  rw [step_bus, store?_of_not_stores quiet]

theorem Storeless.not_stores {count index : Nat} (storeless : machine.Storeless count)
    (lt : index < count) : ∀ instruction ∈ (machine.after index).next?, ¬ instruction.Stores := by
  intro instruction next
  exact storeless instruction (mem_executed_of_next lt next)

theorem Storeless.bus_after {count : Nat} (storeless : machine.Storeless count) {index : Nat}
    (le : index ≤ count) : (machine.after index).bus = machine.bus := by
  induction index with
  | zero => rfl
  | succ index ih =>
      rw [after_add_one, bus_step_of_not_stores (storeless.not_stores le)]
      exact ih (Nat.le_of_lt le)

/-! ### Round and round -/

/-- More moments than addresses: some address has been met twice. -/
theorem exists_revisit (machine : Machine Memory) {late : Nat} (enough : addressCount ≤ late) :
    ∃ first second, first < second ∧ second ≤ late ∧
      (machine.after first).registers.pc = (machine.after second).registers.pc := by
  have crowded : (Finset.range addressCount).card < (Finset.range (late + 1)).card := by
    rw [Finset.card_range, Finset.card_range]
    exact Nat.lt_succ_of_le enough
  have inside : Set.MapsTo (fun index => (machine.after index).registers.pc.toNat)
      (Finset.range (late + 1)) (Finset.range addressCount) := by
    intro index _
    exact Finset.mem_coe.mpr (Finset.mem_range.mpr (UInt16.toNat_lt _))
  obtain ⟨one, oneBound, other, otherBound, different, same⟩ :=
    Finset.exists_ne_map_eq_of_card_lt_of_maps_to crowded inside
  have address := UInt16.toNat_inj.mp same
  rw [Finset.mem_range] at oneBound otherBound
  rcases Nat.lt_or_gt_of_ne different with lt | gt
  · exact ⟨one, other, lt, Nat.lt_succ_iff.mp otherBound, address⟩
  · exact ⟨other, one, gt, Nat.lt_succ_iff.mp oneBound, address.symm⟩

/-- A machine that has come back to an address stays abreast of its first round, as often as it
comes back. -/
theorem Storeless.abreast_of_revisit {first second late : Nat} (storeless : machine.Storeless late)
    (lt : first < second) (le : second ≤ late) (goes : (machine.after second).state = .running)
    (revisits : (machine.after first).registers.pc = (machine.after second).registers.pc)
    (count : Nat) :
    ∃ index < second, Abreast (machine.after index) (machine.after count) ∧
      (machine.after count).bus = machine.bus := by
  induction count with
  | zero => exact ⟨0, Nat.zero_lt_of_lt lt, ⟨rfl, rfl⟩, rfl⟩
  | succ count ih =>
      obtain ⟨index, before, abreast, bus⟩ := ih
      have early : index < late := Nat.lt_of_lt_of_le before le
      have memory : (machine.after index).bus = (machine.after count).bus :=
        (storeless.bus_after (Nat.le_of_lt early)).trans bus.symm
      obtain ⟨_, stepped, next⟩ := abreast.step fun address _ => by rw [memory]
      rw [← after_add_one, ← after_add_one] at stepped
      have quiet := storeless.not_stores early
      rw [next] at quiet
      have kept : (machine.after (count + 1)).bus = machine.bus := by
        rw [after_add_one, bus_step_of_not_stores quiet, bus]
      rcases Nat.lt_or_eq_of_le before with within | ended
      · exact ⟨index + 1, within, stepped, kept⟩
      · rw [← Nat.succ_eq_add_one, ended] at stepped
        have started := running_of_after_running goes (Nat.le_of_lt lt)
        refine ⟨first, lt, ⟨?_, ?_⟩, kept⟩
        · rw [← stepped.state, started, goes]
        · rw [← stepped.pc, revisits]

theorem Storeless.goes_on {late : Nat} (storeless : machine.Storeless late)
    (enough : addressCount ≤ late) (goes : (machine.after late).state = .running) (count : Nat) :
    (machine.after count).state = .running := by
  obtain ⟨first, second, lt, le, revisits⟩ := machine.exists_revisit enough
  obtain ⟨index, before, abreast, _⟩ := storeless.abreast_of_revisit lt le
    (running_of_after_running goes le) revisits count
  rw [← abreast.state]
  exact running_of_after_running goes (Nat.le_trans (Nat.le_of_lt before) le)

/-- A machine that executes no store in its first 65536 steps has halted by then or never
halts. -/
theorem storeless_decided (machine : Machine Memory) (running : machine.state = .running)
    (storeless : ∀ instruction ∈ machine.executed 65536, ¬ instruction.Stores) :
    ((machine.run 65536).1 = .ok .running →
      (∀ budget, (machine.run budget).1 = .ok .running) ∧
        ∀ answer final, ¬ machine.RunsToHalt answer final) ∧
    ((∃ count < 65536, machine.HaltsAfter count) ∨
      ∀ budget, (machine.run budget).1 = .ok .running) := by
  have quiet : machine.Storeless addressCount := storeless
  constructor
  · intro unfinished
    have goes : (machine.after addressCount).state = .running := by
      rw [← run_snd]
      exact (run_eq_running_iff running _).mp unfinished
    have forever := quiet.goes_on (Nat.le_refl _) goes
    refine ⟨fun budget => congrArg Prod.fst (run_of_running (forever budget)), ?_⟩
    intro answer final ends
    obtain ⟨count, halts, _⟩ := (runsToHalt_iff running answer final).mp ends
    have halted := halts.2
    rw [forever] at halted
    cases halted
  · cases state : (machine.after addressCount).state with
    | halted => exact Or.inl (exists_haltsAfter running state)
    | running =>
        have forever := quiet.goes_on (Nat.le_refl _) state
        exact Or.inr fun budget => congrArg Prod.fst (run_of_running (forever budget))

private theorem loads_forever (machine : Machine Memory) (running : machine.state = .running)
    (filled : ∀ address, machine.bus.read address = 0xAD) (count : Nat) :
    (machine.after count).state = .running ∧
      ∀ instruction ∈ machine.executed count, instruction = ⟨.lda, .absolute⟩ := by
  induction count generalizing machine with
  | zero => exact ⟨running, fun _ member => absurd member List.not_mem_nil⟩
  | succ count ih =>
      have decoded : Instruction.decode machine.opcode = some ⟨.lda, .absolute⟩ := by
        rw [opcode, filled]
        rfl
      have stepped := step_of_decoded running decoded
      have next : machine.next? = some ⟨.lda, .absolute⟩ :=
        (next?_of_running running).trans decoded
      obtain ⟨goes, later⟩ := ih machine.step.2 (by rw [stepped]; rfl)
        (by rw [stepped]; exact filled)
      refine ⟨goes, ?_⟩
      rw [executed, next]
      intro instruction member
      rcases List.mem_cons.mp member with same | other
      · exact same
      · exact later instruction other

/-- Loads of three bytes each fill the memory, so that the machine meets every address before it
meets one again. -/
theorem storeless_decided_full_round :
    let machine : Machine Memory := ⟨{}, .running, 0, ⟨Vector.replicate 65536 0xAD⟩, .silent⟩
    machine.state = .running ∧
      (∀ instruction ∈ machine.executed 65536, ¬ instruction.Stores) ∧
      (machine.run 65536).1 = .ok .running ∧
      (∀ budget, (machine.run budget).1 = .ok .running) ∧
      ∀ answer final, ¬ machine.RunsToHalt answer final := by
  intro machine
  have running : machine.state = .running := rfl
  have filled (address : Address) : machine.bus.read address = 0xAD :=
    Vector.getElem_replicate address.toNat_lt
  have loads := loads_forever machine running filled
  clear_value machine
  have storeless : ∀ instruction ∈ machine.executed 65536, ¬ instruction.Stores := by
    intro instruction member
    rw [(loads 65536).2 instruction member]
    simp [Instruction.Stores]
  have unfinished : (machine.run 65536).1 = .ok .running :=
    congrArg Prod.fst (run_of_running (loads 65536).1)
  obtain ⟨forever, never⟩ := (storeless_decided machine running storeless).1 unfinished
  exact ⟨running, storeless, unfinished, forever, never⟩

end Machine

end Cpu6502
