import OrbiterSDK.Proofs.TokenSupply
import OrbiterSDK.Templates.DEXV2Router02

/-! What the calls between the contracts of an exchange give and leave, one lemma for each
function of their manager. -/

namespace OrbiterSDK.Proofs.DexCalls
open Lib Atomic DEXV2

variable {τ : Type} {as_ : Cast τ} {world after : World} {address other : Address} {value : τ}

theorem getContract_yields : Yields (getContract as_ address) world value after ↔
    world.at_ as_ address = some value ∧ after = world := by
  unfold getContract World.at_
  rw [yields_bind]
  constructor
  · rintro ⟨seen, between, got, rest⟩
    obtain ⟨rfl, rfl⟩ := get_yields got
    cases found : between.contracts.find address with
    | none =>
      rw [found] at rest
      cases rest
    | some contract =>
      rw [found] at rest
      cases viewed : as_.view contract with
      | none =>
        simp only [viewed] at rest
        cases rest
      | some given =>
        simp only [viewed] at rest
        obtain ⟨rfl, rfl⟩ := pure_yields rest
        exact ⟨viewed, rfl⟩
  · rintro ⟨known, same⟩
    refine ⟨world, world, rfl, ?_⟩
    cases found : world.contracts.find address with
    | none =>
      rw [found] at known
      cases known
    | some contract =>
      rw [found] at known
      have viewed : as_.view contract = some value := known
      simp only [viewed, same]
      rfl

theorem getContract_keeps {kept : World → Prop} : Keeps kept (getContract as_ address) := by
  intro before value after holds done
  rw [(getContract_yields.mp done).2]
  exact holds

theorem getReserves_keeps {kept : World → Prop} {factory tokenA tokenB : Address} :
    Keeps kept (DEXV2Library.getReserves factory tokenA tokenB) := by
  apply Keeps.bind
  · exact getContract_keeps.bind fun _ => .pure _
  · intro pair
    exact getContract_keeps.bind fun _ => .pure _

theorem amountsInTo_keeps {kept : World → Prop} {factory : Address} {amountOut : Uint256} (path : List Address) :
    Keeps kept (DEXV2Library.amountsInTo factory amountOut path) := by
  induction path with
  | nil => exact .pure _
  | cons input rest ih =>
    cases rest with
    | nil => exact .pure _
    | cons output rest => exact ih.bind fun _ => getReserves_keeps.bind fun _ => (Keeps.checked _).bind fun _ => .pure _

theorem put_yields {answer : Unit} (done : Yields (putContract as_ address value) world answer after) :
    after = world.put as_ address value := modify_yields done

theorem yields_getContract_bind {β : Type} {next : τ → Run β} {answer : β} :
    Yields (getContract as_ address >>= next) world answer after ↔
      ∃ contract, world.at_ as_ address = some contract ∧ Yields (next contract) world answer after := by
  rw [yields_bind]
  constructor
  · rintro ⟨contract, between, got, rest⟩
    obtain ⟨known, kept⟩ := getContract_yields.mp got
    rw [kept] at rest
    exact ⟨contract, known, rest⟩
  · rintro ⟨contract, known, rest⟩
    exact ⟨contract, world, getContract_yields.mpr ⟨known, rfl⟩, rest⟩

theorem callContractFunction_yields {function : τ → Except Exception τ} {answer : Unit}
    (done : Yields (callContractFunction as_ address function) world answer after) :
    ∃ contract changed, world.at_ as_ address = some contract ∧ function contract = .ok changed ∧
      after = world.put as_ address changed := by
  obtain ⟨contract, known, rest⟩ := yields_getContract_bind.mp done
  obtain ⟨changed, result, put⟩ := yields_checked_bind.mp rest
  exact ⟨contract, changed, known, result, put_yields put⟩

theorem yields_known_bind {β : Type} {known : τ} {next : τ → Run β} {answer : β} (here : world.at_ as_ address = some known) :
    Yields (getContract as_ address >>= next) world answer after ↔ Yields (next known) world answer after := by
  rw [yields_getContract_bind]
  constructor
  · rintro ⟨_, found, rest⟩
    cases here.symm.trans found
    exact rest
  · exact fun rest => ⟨known, here, rest⟩

theorem yields_pairFor_bind {β : Type} {home tokenA tokenB : Address} {factory : DEXV2Factory} {next : Address → Run β} {answer : β}
    (here : world.at_ asFactory home = some factory) : Yields (DEXV2Library.pairFor home tokenA tokenB >>= next) world answer after ↔
      Yields (next (factory.getPair tokenA tokenB)) world answer after := by
  rw [DEXV2Library.pairFor, bind_assoc, yields_known_bind here, pure_bind]

theorem yields_putContract_bind {β : Type} {next : Unit → Run β} {answer : β} :
    Yields (putContract as_ address value >>= next) world answer after ↔
      Yields (next ()) (world.put as_ address value) answer after := yields_modify_bind

theorem yields_callContractFunction_bind {β : Type} {function : τ → Except Exception τ} {next : Unit → Run β} {answer : β} :
    Yields (callContractFunction as_ address function >>= next) world answer after ↔
      ∃ contract changed, world.at_ as_ address = some contract ∧ function contract = .ok changed ∧
        Yields (next ()) (world.put as_ address changed) answer after := by
  unfold callContractFunction
  rw [bind_assoc, yields_getContract_bind]
  simp only [bind_assoc, yields_checked_bind, yields_putContract_bind]
  constructor
  · rintro ⟨contract, known, changed, done, rest⟩
    exact ⟨contract, changed, known, done, rest⟩
  · rintro ⟨contract, changed, known, done, rest⟩
    exact ⟨contract, known, changed, done, rest⟩

theorem at_put_self {old : τ} (known : world.at_ as_ address = some old) : (world.put as_ address value).at_ as_ address = some value := by
  unfold World.at_ at known ⊢
  simp only [World.put, Registry.find_update_self]
  cases found : world.contracts.find address with
  | none =>
    rw [found] at known
    cases known
  | some contract =>
    rw [found] at known
    have viewed : as_.view contract = some old := known
    exact as_.write_view contract value (by rw [viewed]; rfl)

theorem at_put_of_ne {σ : Type} (as_' : Cast σ) (apart : other ≠ address) :
    (world.put as_ address value).at_ as_' other = world.at_ as_' other := by
  unfold World.at_
  simp only [World.put, Registry.find_update_of_ne _ _ apart]

@[simp] theorem put_keys : (world.put as_ address value).contracts.keys = world.contracts.keys := Registry.keys_update _ _ _

end OrbiterSDK.Proofs.DexCalls
