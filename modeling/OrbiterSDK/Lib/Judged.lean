import OrbiterSDK.Lib.Reader

/-! Computations that may fail, with one failure that must not happen: exactly when they are
free of it, exactly when they have a result, and what their results are like. -/

namespace Lib
variable {ε α β : Type}

structure Judged (fault : ε) (run : Except ε α) (sound ready : Prop) (result : α → Prop) : Prop where
  safe : run ≠ .error fault ↔ sound
  reads : (∃ value, run = .ok value) ↔ ready
  meets : ∀ value, run = .ok value → result value

namespace Judged
variable {fault what : ε} {run : Except ε α} {sound ready later last : Prop} {result : α → Prop} {final : β → Prop}

theorem value {value : α} (holds : result value) : Judged fault (pure value) True True result where
  safe := iff_of_true nofun trivial
  reads := iff_of_true ⟨value, rfl⟩ trivial
  meets := fun _ same => Except.ok.inj same ▸ holds

theorem refused (other : what ≠ fault) : Judged fault (.error what) True False result where
  safe := iff_of_true (fun same => other (Except.error.inj same)) trivial
  reads := iff_of_false nofun id
  meets := nofun

theorem faulty : Judged fault (.error fault) False False result where
  safe := iff_of_false (fun never => never rfl) id
  reads := iff_of_false nofun id
  meets := nofun

theorem congr {otherSound otherReady : Prop} (judged : Judged fault run sound ready result) (sameSound : sound ↔ otherSound)
    (sameReady : ready ↔ otherReady) : Judged fault run otherSound otherReady result where
  safe := judged.safe.trans sameSound
  reads := judged.reads.trans sameReady
  meets := judged.meets

/-- What comes later counts if what comes first has a result. -/
theorem bind {next : α → Except ε β} (first : Judged fault run sound ready result)
    (others : ∀ value, result value → Judged fault (next value) later last final) :
    Judged fault (run >>= next) (sound ∧ (ready → later)) (ready ∧ last) final := by
  cases run with
  | error what =>
    have never : ¬ ready := fun holds => nomatch first.reads.mpr holds
    constructor
    · constructor
      · intro free
        exact ⟨first.safe.mp fun same => free (congrArg _ (Except.error.inj same)), fun holds => absurd holds never⟩
      · rintro ⟨holds, _⟩ same
        exact first.safe.mpr holds (congrArg _ (Except.error.inj same))
    · exact iff_of_false nofun fun ⟨holds, _⟩ => never holds
    · exact nofun
  | ok value =>
    have holds : ready := first.reads.mp ⟨value, rfl⟩
    have free : sound := first.safe.mp nofun
    have judged := others value (first.meets value rfl)
    constructor
    · constructor
      · intro safe
        exact ⟨free, fun _ => judged.safe.mp safe⟩
      · rintro ⟨_, rest⟩
        exact judged.safe.mpr (rest holds)
    · constructor
      · intro reads
        exact ⟨holds, judged.reads.mp reads⟩
      · rintro ⟨_, rest⟩
        exact judged.reads.mpr rest
    · exact judged.meets

/-- A test in front, with a failure of its own. -/
theorem guard {stop : Prop} [Decidable stop] {next : Unit → Except ε α} (other : what ≠ fault)
    (rest : ¬ stop → Judged fault (next ()) sound ready result) :
    Judged fault ((if stop then .error what else .ok ()) >>= next) (¬ stop → sound) (¬ stop ∧ ready) result := by
  by_cases stops : stop
  · rw [if_pos stops]
    apply (refused other).congr
    · exact iff_of_true trivial fun goes => absurd stops goes
    · exact iff_of_false id fun ⟨goes, _⟩ => goes stops
  · rw [if_neg stops]
    apply (rest stops).congr
    · exact ⟨fun holds _ => holds, fun holds => holds stops⟩
    · exact ⟨fun holds => ⟨stops, holds⟩, And.right⟩

end Judged
end Lib
