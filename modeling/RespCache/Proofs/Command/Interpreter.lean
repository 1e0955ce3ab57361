import RespCache.Proofs.Command.Answers

/-!
Commands on a plain list. `interpret` tells, for each value that a client can send, the reply and
what becomes of the pairs, by the shape of the value alone: reads, writes and the two flush commands
act by the rule of least recent use, and nothing else touches a pair or the order of use. Whatever
values are sent to a new cache, replies and entries are those of the plain list, and a reply that is
an error leaves the entries as they are (`answerAll_interpretAll`).
-/

namespace RespCache.Command

open Resp

/-- Whether a value is a bulk string that is a key. -/
def isKey (c : PlainByteCache) : Value → Bool
  | .bulk key => c.contains key
  | _ => false

/-- The reply to a command, and the pairs after it. The command is refused where no reply is given:
the reply is then an error. -/
def interpretNamed (c : PlainByteCache) (name : String) (args : List Value) :
    Option Value × PlainByteCache :=
  match name, args with
  | "PING", [] => (some (.simple "PONG"), c)
  | "PING", [message] => (some message, c)
  | "ECHO", [message] => (some message, c)
  | "GET", [.bulk key] => (some ((c.get key).1.elim .nullBulk .bulk), (c.get key).2)
  | "SET", [.bulk key, .bulk value] => (some (.simple "OK"), (c.set key value).2)
  | "EXISTS", arg :: args => (some (.integer (Int64.ofNat ((arg :: args).countP (isKey c)))), c)
  | "DBSIZE", [] => (some (.integer (Int64.ofNat c.entries.length)), c)
  | "FLUSHDB", [] | "FLUSHDB", [_] | "FLUSHALL", [] | "FLUSHALL", [_] =>
    (some (.simple "OK"), { c with entries := [] })
  | "INFO", _ => (some (.bulk (Utf8.encode (infoText c.entries.length c.capacity))), c)
  | "COMMAND", _ => (some (.array []), c)
  | _, _ => (none, c)

/-- The reply to a value, and the pairs after it. -/
def interpret (c : PlainByteCache) : Value → Option Value × PlainByteCache
  | .array (.bulk name :: args) => interpretNamed c (nameOf name) args
  | _ => (none, c)

/-- The replies to values that are sent one after the other, and the pairs after them. -/
def interpretAll (c : PlainByteCache) : List Value → List (Option Value) × PlainByteCache
  | [] => ([], c)
  | v :: vs =>
    let (reply, c) := interpret c v
    let (replies, c) := interpretAll c vs
    (reply :: replies, c)

/-! ### Values and the requests that they are -/

/-- Keys among the arguments are counted as often as they are given. -/
theorem countP_bulks (c : PlainByteCache) (args : List Value) :
    (args.filterMap bulk?).countP c.contains = args.countP (isKey c) := by
  rw [List.countP_filterMap]
  refine List.countP_congr fun v _ => ?_
  cases v with
  | bulk | simple | error | integer | nullBulk | array | nullArray => rfl

/-- If there is a request, it leads to `reached`. -/
def LeadsTo (c : PlainByteCache) (reached : Option Value × PlainByteCache) :
    Except Refusal Request → Prop
  | .ok request => reached = request.expected c
  | .error _ => True

section Arguments

variable (c : PlainByteCache) (args : List Value)

theorem leadsTo_ofPing : LeadsTo c (interpretNamed c "PING" args) (ofPing args) := by
  unfold ofPing
  split
  · rfl
  · rfl
  · trivial

theorem leadsTo_ofEcho : LeadsTo c (interpretNamed c "ECHO" args) (ofEcho args) := by
  unfold ofEcho
  split
  · rfl
  · trivial

theorem leadsTo_ofGet : LeadsTo c (interpretNamed c "GET" args) (ofGet args) := by
  unfold ofGet
  split
  · rfl
  · trivial
  · trivial

theorem leadsTo_ofSet : LeadsTo c (interpretNamed c "SET" args) (ofSet args) := by
  unfold ofSet
  split
  · rfl
  · trivial
  · trivial
  · trivial

theorem leadsTo_ofExists : LeadsTo c (interpretNamed c "EXISTS" args) (ofExists args) := by
  cases args with
  | nil => trivial
  | cons arg args =>
      show _ = Request.expected c (.count ((arg :: args).filterMap bulk?))
      rw [Request.expected, countP_bulks]
      rfl

theorem leadsTo_ofSize : LeadsTo c (interpretNamed c "DBSIZE" args) (ofSize args) := by
  unfold ofSize
  split
  · rfl
  · trivial

theorem leadsTo_ofFlush {name command : String} (hname : name = "FLUSHDB" ∨ name = "FLUSHALL") :
    LeadsTo c (interpretNamed c name args) (ofFlush command args) := by
  unfold ofFlush
  split
  · rcases hname with rfl | rfl <;> rfl
  · rcases hname with rfl | rfl <;> rfl
  · trivial

theorem leadsTo_ofName (name : String) :
    LeadsTo c (interpretNamed c name args) (ofName name args) := by
  unfold ofName
  refine iteInduction (fun h => h ▸ leadsTo_ofPing c args) fun _ => ?_
  refine iteInduction (fun h => h ▸ leadsTo_ofEcho c args) fun _ => ?_
  refine iteInduction (fun h => h ▸ leadsTo_ofGet c args) fun _ => ?_
  refine iteInduction (fun h => h ▸ leadsTo_ofSet c args) fun _ => ?_
  refine iteInduction (fun h => h ▸ leadsTo_ofExists c args) fun _ => ?_
  refine iteInduction (fun h => h ▸ leadsTo_ofSize c args) fun _ => ?_
  refine iteInduction (fun h => leadsTo_ofFlush c args (.inl h)) fun _ => ?_
  refine iteInduction (fun h => leadsTo_ofFlush c args (.inr h)) fun _ => ?_
  refine iteInduction (fun h => h ▸ rfl) fun _ => ?_
  exact iteInduction (fun h => h ▸ rfl) fun _ => trivial

end Arguments

theorem interpretNamed_of_refusal {name : String} {args : List Value} {refusal : Refusal}
    (h : ofName name args = .error refusal) (c : PlainByteCache) :
    interpretNamed c name args = (none, c) := by
  unfold interpretNamed
  split
  case h_14 => rfl
  -- where a reply is given, the value is a request
  all_goals cases h

theorem interpret_of_request {v : Value} {request : Request}
    (h : Request.ofValue v = .ok request) (c : PlainByteCache) :
    interpret c v = request.expected c := by
  unfold Request.ofValue at h
  split at h
  case h_1 name args =>
      have hreached := leadsTo_ofName c args (nameOf name)
      rw [h] at hreached
      exact hreached
  case h_2 | h_3 => cases h

theorem interpret_of_refusal {v : Value} {refusal : Refusal}
    (h : Request.ofValue v = .error refusal) (c : PlainByteCache) :
    interpret c v = (none, c) := by
  unfold interpret
  split
  case h_1 name args => exact interpretNamed_of_refusal h c
  case h_2 => rfl

/-- A value is answered as on the plain list. -/
theorem meets_answer {c : ByteCache} (hc : c.Sound) (v : Value) :
    Meets (answer c v) (interpret c.plain v) := by
  rw [answer]
  cases h : Request.ofValue v with
  | ok request =>
      rw [interpret_of_request h]
      exact meets_expected hc request
  | error refusal =>
      rw [interpret_of_refusal h]
      exact ⟨_, rfl, hc, ⟨_, rfl⟩, rfl⟩

/-- An error comes without a change, also one that the client sent and gets back. -/
theorem expected_of_error {c : PlainByteCache} {request : Request} {text : String}
    (h : Fulfils (request.expected c).1 (.error text)) : (request.expected c).2 = c := by
  cases request with
  | get key =>
      rw [Request.expected] at h
      cases hvalue : (c.get key).1 with
      | none => rw [hvalue] at h; cases h
      | some data => rw [hvalue] at h; cases h
  | set => cases h
  | flush => cases h
  | ping | echo | count | size | info | commands => rfl

theorem interpret_of_error {c : PlainByteCache} {v : Value} {text : String}
    (h : Fulfils (interpret c v).1 (.error text)) : (interpret c v).2 = c := by
  cases hvalue : Request.ofValue v with
  | ok request =>
      rw [interpret_of_request hvalue] at h ⊢
      exact expected_of_error h
  | error refusal => rw [interpret_of_refusal hvalue]

theorem meets_answerAll {c : ByteCache} (hc : c.Sound) (vs : List Value) :
    ∃ o, answerAll c vs = .ok o ∧ o.cache.Sound ∧
      List.Forall₂ Fulfils (interpretAll c.plain vs).1 o.value ∧
      o.cache.plain = (interpretAll c.plain vs).2 := by
  induction vs generalizing c with
  | nil => exact ⟨_, answerAll_nil c, hc, .nil, rfl⟩
  | cons v vs ih =>
      obtain ⟨o, hanswer, hsound, hreply, hplain⟩ := meets_answer hc v
      obtain ⟨os, hanswers, hfinal, hreplies, hplains⟩ := ih hsound
      rw [hplain] at hreplies hplains
      exact ⟨_, answerAll_cons_eq_ok_iff.mpr ⟨o, os, hanswer, hanswers, rfl⟩, hfinal,
        .cons hreply hreplies, hplains⟩

/-- Whatever values are sent to a new cache, the replies and the entries in order of use are those of
the plain list; and after them no value is answered by an error and changes the entries. -/
theorem answerAll_interpretAll {capacity : Nat} (hpos : 0 < capacity) (vs : List Value) :
    ∃ created o, Cache.ofCapacity capacity = .ok created ∧ answerAll created.cache vs = .ok o ∧
      List.Forall₂ Fulfils (interpretAll ⟨capacity, []⟩ vs).1 o.value ∧
      o.cache.toList = (interpretAll ⟨capacity, []⟩ vs).2.entries ∧
      ∀ v, ∃ next, answer o.cache v = .ok next ∧
        ∀ text, next.value = .error text → next.cache.toList = o.cache.toList := by
  have hsound : (⟨∅, .empty, capacity⟩ : ByteCache).Sound := Cache.sound_empty hpos
  obtain ⟨o, hanswers, hfinal, hreplies, hplain⟩ := meets_answerAll hsound vs
  rw [Cache.plain_empty] at hreplies hplain
  refine ⟨_, o, if_neg (Nat.ne_of_gt hpos), hanswers, hreplies,
    congrArg PlainCache.entries hplain, fun v => ?_⟩
  obtain ⟨next, hanswer, -, hreply, hnext⟩ := meets_answer hfinal v
  refine ⟨next, hanswer, fun text herror => ?_⟩
  rw [herror] at hreply
  rw [interpret_of_error hreply] at hnext
  exact congrArg PlainCache.entries hnext

/-- A write, a write with an option, a question for both keys and a value, with room for one key. -/
theorem answerAll_interpretAll_one : 0 < 1 ∧
    ∃ (created : Cache.Outcome Bytes Bytes Unit) (o : Cache.Outcome Bytes Bytes (List Value)),
      Cache.ofCapacity 1 = .ok created ∧
      answerAll created.cache [.array [.bulk [115, 101, 116], .bulk [107], .bulk [118]],
        .array [.bulk [83, 69, 84], .bulk [108], .bulk [118], .bulk [78, 88]],
        .array [.bulk [69, 88, 73, 83, 84, 83], .bulk [107], .bulk [107], .bulk [108]],
        .simple "GET"] = .ok o ∧
      List.Forall₂ Fulfils [some (.simple "OK"), none, some (.integer 2), none] o.value ∧
      o.cache.toList = [([107], [118])] ∧
      ∀ v, ∃ next, answer o.cache v = .ok next ∧
        ∀ text, next.value = .error text → next.cache.toList = o.cache.toList := by
  refine ⟨by decide, ?_⟩
  exact answerAll_interpretAll (by decide) _

end RespCache.Command
