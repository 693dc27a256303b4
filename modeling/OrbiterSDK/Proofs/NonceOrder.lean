import OrbiterSDK.Proofs.BlockRun
import OrbiterSDK.Proofs.Conservation

/-! Nonces within a block. Every completed transaction advances the nonce of its
sender by one and no other nonce, so the nonce under which a transaction runs is that
before the block plus the number of earlier transactions of the same sender. -/

namespace OrbiterSDK.Proofs.NonceOrder
open Lib State Statements Frames Transaction HostCommit BlockRun Conservation

variable {World : Type} {env : Env World} {context : BlockContext}

theorem nonceOf_finished (tx : TxBlock) (state : State World) (addr : Address) :
    (finished tx state).nonceOf addr = if addr = tx.from then state.nonceOf addr + 1 else state.nonceOf addr := by
  simp only [State.nonceOf, finished, withHost_evmHost, commitBalance_nonce, commitNonce_nonce]
  have write : ((state.evmHost.accounts.modify tx.from fun acc =>
      { acc with nonce := acc.nonce.write (acc.nonce.second + 1) }).value addr).nonce.second =
      if addr = tx.from then (state.evmHost.account addr).nonce.second + 1
      else (state.evmHost.account addr).nonce.second := by
    rw [Table.modify_value]
    split
    case isTrue same => rw [same]; rfl
    case isFalse => rfl
  rw [← write]
  split
  · rfl
  · rfl

/-- A completed transaction ends with its last statements, after a branch that leaves the nonces alone. -/
theorem nonceOf_processed {tx : TxBlock} {txIndex : UInt64} {state after : State World} {value : Unit}
    (done : (processTransaction env tx context txIndex).eval state = (.ok value, after)) (addr : Address) :
    after.nonceOf addr = if addr = tx.from then state.nonceOf addr + 1 else state.nonceOf addr := by
  rw [processTransaction_eq] at done
  have kept := follows_dispatch framed_nonces env tx context txIndex (entered tx state)
  rcases seen : (dispatch env tx context txIndex).eval (entered tx state) with ⟨stop | value, later⟩
  · rw [seen] at done
    cases done
  · rw [seen] at done kept
    cases done
    have same : later.nonceOf addr = state.nonceOf addr := by
      have here := congrFun kept addr
      simp only [nonces, account_entered] at here
      rw [State.nonceOf, State.nonceOf, here]
    rw [nonceOf_finished, same]

/-- How many transactions of a list are from an account. -/
def sentBy (addr : Address) (txs : List TxBlock) : Nat := txs.countP fun tx => tx.from = addr

/-- The nonces of a state that has processed some transactions since an earlier one. -/
def Advanced (before : State World) (txs : List TxBlock) (after : State World) : Prop :=
  ∀ addr, after.nonceOf addr = before.nonceOf addr + UInt64.ofNat (sentBy addr txs)

theorem advanced_nil (state : State World) : Advanced state [] state := fun addr => by simp [sentBy]

theorem advanced_cons {tx : TxBlock} {txIndex : UInt64} {state next after : State World} {value : Unit} {txs : List TxBlock}
    (done : (processTransaction env tx context txIndex).eval state = (.ok value, next)) (rest : Advanced next txs after) :
    Advanced state (tx :: txs) after := by
  intro addr
  rw [rest addr, nonceOf_processed done]
  simp only [sentBy, List.countP_cons, decide_eq_true_eq, eq_comm (a := tx.from)]
  split
  · rw [UInt64.ofNat_add, UInt64.add_assoc]
    congr 1
    exact UInt64.add_comm _ _
  · rfl

theorem executions_advanced (txs : List TxBlock) : ∀ {txIndex : UInt64} {state : State World} {front back run},
    executions env context txs txIndex state = front ++ run :: back → Advanced state (front.map Prod.snd) run.1 := by
  induction txs with
  | nil =>
    intro txIndex state front back run split
    simp [executions] at split
  | cons tx rest ih =>
    intro txIndex state front back run split
    rw [executions] at split
    cases front with
    | nil =>
      cases split
      exact advanced_nil state
    | cons head others =>
      rw [List.cons_append, List.cons.injEq] at split
      obtain ⟨rfl, split⟩ := split
      rcases seen : (processTransaction env tx context txIndex).eval state with ⟨stop | value, next⟩
      · simp [seen] at split
      · rw [seen] at split
        exact advanced_cons seen (ih split)

theorem executions_prefix (txs : List TxBlock) : ∀ (txIndex : UInt64) (state : State World),
    (executions env context txs txIndex state).map Prod.snd <+: txs := by
  induction txs with
  | nil => exact fun _ _ => List.prefix_refl _
  | cons tx rest ih =>
    intro txIndex state
    rw [executions, List.map_cons]
    refine (List.prefix_cons_inj tx).mpr ?_
    split
    · exact ih _ _
    · exact List.nil_prefix

/-- In a list that is processed to its end every transaction is executed. -/
theorem executions_complete (txs : List TxBlock) : ∀ {txIndex : UInt64} {state after : State World} {value : Unit},
    (processTransactions env context txs txIndex).eval state = (.ok value, after) →
    (executions env context txs txIndex state).map Prod.snd = txs := by
  induction txs with
  | nil => exact fun _ => rfl
  | cons tx rest ih =>
    intro txIndex state after value done
    rw [processTransactions, Action.eval_bind] at done
    rcases seen : (processTransaction env tx context txIndex).eval state with ⟨stop | first, next⟩
    · rw [seen] at done
      cases done
    · rw [seen] at done
      rw [executions, seen, List.map_cons, ih done]

/-- Every transaction carries the nonce that its sender starts from, advanced by the
earlier transactions of the same sender. -/
def InSequence (start : Address → UInt64) (txs : List TxBlock) : Prop :=
  ∀ earlier tx later, txs = earlier ++ tx :: later →
    tx.nonce.toNat = (start tx.from + UInt64.ofNat (sentBy tx.from earlier)).toNat

/-- A sender's nonces differ as long as the counter does not wrap. -/
theorem unrepeated_of_inSequence (txs : List TxBlock) : ∀ {start : Address → UInt64}, InSequence start txs →
    txs.length < 2 ^ 64 → txs.Pairwise fun first second => first.from = second.from → first.nonce ≠ second.nonce := by
  induction txs with
  | nil => exact fun _ _ => .nil
  | cons tx rest ih =>
    intro start sequence bounded
    rw [List.length_cons] at bounded
    refine List.pairwise_cons.mpr ⟨fun other member same repeats => ?_, ?_⟩
    · obtain ⟨earlier, later, split⟩ := List.append_of_mem member
      have here := sequence [] tx rest rfl
      have there := sequence (tx :: earlier) other later (by rw [split]; rfl)
      rw [← repeats, here, ← same] at there
      have count : sentBy tx.from (tx :: earlier) = sentBy tx.from earlier + 1 := by simp [sentBy]
      have fewer : sentBy tx.from earlier ≤ earlier.length := List.countP_le_length
      have shorter : earlier.length < rest.length := by
        rw [split, List.length_append, List.length_cons]
        omega
      have equal := UInt64.toNat_inj.mp there
      rw [count] at equal
      have none : UInt64.ofNat (sentBy tx.from earlier + 1) = UInt64.ofNat (sentBy tx.from []) :=
        (UInt64.add_right_inj _).mp equal.symm
      have impossible := congrArg UInt64.toNat none
      simp only [UInt64.toNat_ofNat', sentBy, List.countP_nil] at impossible fewer
      omega
    · have shifted : InSequence (fun addr => start addr + UInt64.ofNat (sentBy addr [tx])) rest := by
        intro earlier other later split
        rw [sequence (tx :: earlier) other later (by rw [split]; rfl), UInt64.add_assoc, ← UInt64.ofNat_add]
        congr 3
        simp only [sentBy, List.countP_cons, List.countP_nil]
        omega
      exact ih shifted (by omega)

section Blocks
variable (env : Env World) (block : Block) (state : State World)

/-- Every transaction is executed under the nonce that its sender's account has at that moment. -/
def InOrder : Prop :=
  ∀ run ∈ blockExecutions env block state, (run.1.nonceOf run.2.from).toNat = run.2.nonce.toNat

/-- No transaction is executed twice, and no sender uses a nonce twice. -/
def Unrepeated : Prop :=
  ((blockExecutions env block state).map Prod.snd).Pairwise fun first second =>
    first.hash ≠ second.hash ∧ (first.from = second.from → first.nonce ≠ second.nonce)

end Blocks

variable {block : Block} {state : State World}

theorem inOrder_iff : InOrder env block state ↔ InSequence state.nonceOf ((blockExecutions env block state).map Prod.snd) := by
  constructor
  · intro inOrder earlier tx later split
    obtain ⟨front, rest, whole, frontIs, restIs⟩ := List.map_eq_append_iff.mp split
    obtain ⟨run, back, rfl, rfl, _⟩ := List.map_eq_cons_iff.mp restIs
    have advanced := executions_advanced block.txs whole
    have nonce := inOrder run (by rw [whole]; simp)
    rw [← nonce, advanced, frontIs]
    rfl
  · intro sequence run member
    obtain ⟨front, back, whole⟩ := List.append_of_mem member
    have advanced := executions_advanced block.txs whole
    rw [sequence (front.map Prod.snd) run.2 (back.map Prod.snd) (by rw [whole, List.map_append, List.map_cons]), advanced]
    rfl

/-- A block runs in order exactly if the transactions it executes, which are all of
them if it completes, carry the nonces before the block advanced by the earlier
transactions of the same sender; and then nothing is replayed. -/
theorem block_runs_in_order_iff (bounded : block.txs.length < 2 ^ 64)
    (identified : ∀ first ∈ block.txs, ∀ second ∈ block.txs, first.hash = second.hash →
      first.from = second.from ∧ first.nonce = second.nonce) :
    (InOrder env block state ↔ InSequence state.nonceOf ((blockExecutions env block state).map Prod.snd)) ∧
    (blockExecutions env block state).map Prod.snd <+: block.txs ∧
    ((runTransactions env block state).1 = .ok () → (blockExecutions env block state).map Prod.snd = block.txs) ∧
    (InOrder env block state → Unrepeated env block state) := by
  have part : (blockExecutions env block state).map Prod.snd <+: block.txs := executions_prefix _ _ _
  refine ⟨inOrder_iff, part, fun completes => ?_, fun inOrder => ?_⟩
  · rcases seen : runTransactions env block state with ⟨result, after⟩
    rw [seen] at completes
    cases completes
    exact executions_complete block.txs seen
  · have distinct := unrepeated_of_inSequence _ (inOrder_iff.mp inOrder) (lt_of_le_of_lt part.length_le bounded)
    refine List.Pairwise.imp_of_mem (fun {first second} firstIn secondIn apart => ⟨fun same => ?_, apart⟩) distinct
    obtain ⟨sender, nonce⟩ := identified first (part.subset firstIn) second (part.subset secondIn) same
    exact apart sender nonce

/-- The block after the first one, with some transactions. -/
def nextBlock (txs : List TxBlock) : Block :=
  { genesis with
    prevBlockHash := 1
    timestamp := 1656356646000000
    nHeight := 1
    txs
    hash := 3 }

def transfer (nonce : Uint256) (hash : Hash) : TxBlock :=
  { donation with
    «to» := 9
    nonce
    hash }

/-- Two accounts with a thousand coins each, and a transfer of the second one. -/
def twoAccounts : State Unit :=
  construct { nativeAccounts := [(7, 1000000000000000000000, 0), (8, 1000000000000000000000, 0)] } () [] 0 ⟨[], genesis⟩

def otherTransfer : TxBlock :=
  { transfer 0 5 with
    «from» := 8 }

theorem repeated_transfer_is_replayed :
    Reachable stoppingEnv freshState ∧
    Accepts stoppingEnv freshState (nextBlock [transfer 0 4, transfer 0 4]) ∧
    ¬ InOrder stoppingEnv (nextBlock [transfer 0 4, transfer 0 4]) freshState ∧
    ¬ Unrepeated stoppingEnv (nextBlock [transfer 0 4, transfer 0 4]) freshState := by
  refine ⟨.construct _ _ _ _ _, ?_, ?_, ?_⟩
  · unfold Accepts
    decide
  · unfold InOrder
    decide
  · unfold Unrepeated
    decide

/-- A second transfer that waits in the mempool, as only then a block with both of them is accepted. -/
def secondWaits : State Unit := { freshState with mempool := [(5, transfer 1 5)] }

theorem two_transfers_run_in_order :
    Accepts stoppingEnv secondWaits (nextBlock [transfer 0 4, transfer 1 5]) ∧
    (blockExecutions stoppingEnv (nextBlock [transfer 0 4, transfer 1 5]) secondWaits).map Prod.snd =
      [transfer 0 4, transfer 1 5] ∧
    InSequence secondWaits.nonceOf [transfer 0 4, transfer 1 5] ∧
    Unrepeated stoppingEnv (nextBlock [transfer 0 4, transfer 1 5]) secondWaits := by
  have accepts : Accepts stoppingEnv secondWaits (nextBlock [transfer 0 4, transfer 1 5]) := by
    unfold Accepts
    decide
  have inOrder : InOrder stoppingEnv (nextBlock [transfer 0 4, transfer 1 5]) secondWaits := by
    unfold InOrder
    decide
  have completes : (runTransactions stoppingEnv (nextBlock [transfer 0 4, transfer 1 5]) secondWaits).1 =
      .ok () := by decide
  have identified : ∀ first ∈ (nextBlock [transfer 0 4, transfer 1 5]).txs, ∀ second ∈ (nextBlock [transfer 0 4, transfer 1 5]).txs,
      first.hash = second.hash → first.from = second.from ∧ first.nonce = second.nonce := by decide
  obtain ⟨ordered, _, all, unrepeated⟩ := @block_runs_in_order_iff Unit stoppingEnv
    (nextBlock [transfer 0 4, transfer 1 5]) secondWaits (by decide) identified
  have sequence := ordered.mp inOrder
  rw [all completes] at sequence
  exact ⟨accepts, all completes, sequence, unrepeated inOrder⟩

end OrbiterSDK.Proofs.NonceOrder
