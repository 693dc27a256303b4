import OrbiterSDK.Proofs.InnerCalls

/-! The marks that an execution leaves on the host besides the values it writes: the
accounts it creates by looking at them, what it notes as accessed, and whether it asked
for something that is refused. -/

namespace OrbiterSDK.Proofs.Marks
open Lib HostRun HostCommit InnerCalls

inductive Mark where
  | account (addr : Address)
  | store (addr : Address) (key : Hash)
  | transient (addr : Address)
  | code (addr : Address) (txHash : Hash)
  | refusal

/-- The account that a mark is on. -/
def Mark.place : Mark → Option Address
  | account addr => some addr
  | store addr _ => some addr
  | transient addr => some addr
  | code addr _ => some addr
  | refusal => none

/-- A host that bears some more marks than an earlier one. -/
structure Marked (before : EVMHost) (marks : List Mark) (after : EVMHost) : Prop where
  storages : ∀ addr key, (addr, key) ∈ after.accessedStorages ↔ (addr, key) ∈ before.accessedStorages ∨ .store addr key ∈ marks
  transients : ∀ addr, addr ∈ after.accessedTransients ↔ addr ∈ before.accessedTransients ∨ .transient addr ∈ marks
  codes : ∀ addr, addr ∈ after.accessedAccountsCode ↔
    addr ∈ before.accessedAccountsCode ∨ ∃ txHash, .code addr txHash ∈ marks
  created : ∀ txHash, txHash ∈ after.recentlyCreatedContracts ↔
    txHash ∈ before.recentlyCreatedContracts ∨ ∃ addr, .code addr txHash ∈ marks
  keys : ∀ addr, addr ∈ after.accounts.keys ↔ addr ∈ before.accounts.keys ∨ ∃ mark ∈ marks, mark.place = some addr
  refused : after.shouldRevert = true ↔ before.shouldRevert = true ∨ .refusal ∈ marks

/-- Only one member at a time can bear a mark, so most marks are settled by computation. -/
theorem Marked.none {before after : EVMHost} (storages : after.accessedStorages = before.accessedStorages)
    (transients : after.accessedTransients = before.accessedTransients)
    (codes : after.accessedAccountsCode = before.accessedAccountsCode)
    (created : after.recentlyCreatedContracts = before.recentlyCreatedContracts)
    (keys : after.accounts.keys = before.accounts.keys) (refused : after.shouldRevert = before.shouldRevert) :
    Marked before [] after where
  storages addr key := by rw [storages]; simp
  transients addr := by rw [transients]; simp
  codes addr := by rw [codes]; simp
  created txHash := by rw [created]; simp
  keys addr := by rw [keys]; simp
  refused := by rw [refused]; simp

theorem Marked.trans {first second third : EVMHost} {early late : List Mark} (before : Marked first early second)
    (after : Marked second late third) : Marked first (early ++ late) third where
  storages addr key := by rw [after.storages, before.storages, List.mem_append, or_assoc]
  transients addr := by rw [after.transients, before.transients, List.mem_append, or_assoc]
  codes addr := by rw [after.codes, before.codes, or_assoc, ← exists_or]; simp only [List.mem_append]
  created txHash := by rw [after.created, before.created, or_assoc, ← exists_or]; simp only [List.mem_append]
  keys addr := by
    rw [after.keys, before.keys, or_assoc, ← exists_or]
    simp only [List.mem_append, or_and_right]
  refused := by rw [after.refused, before.refused, List.mem_append, or_assoc]

variable (host : EVMHost)

variable (vm : Vm)

end OrbiterSDK.Proofs.Marks
