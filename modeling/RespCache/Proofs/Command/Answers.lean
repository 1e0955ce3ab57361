import RespCache.Command.Execution
import RespCache.Proofs.Cache.Run

/-!
Answering values one after the other: some values and then others are answered as all of them at
once (`answerAll_append_eq_ok_iff`). On a sound cache a request is carried out as on the plain list
(`meets_expected`), and every value gets an answer (`exists_answerAll`).
-/

namespace RespCache.Command

open Resp

theorem answerAllFrom_eq (c : ByteCache) (replies : List Value) (events : List Cache.Event)
    (vs : List Value) :
    answerAllFrom c replies events vs =
      (answerAll c vs).map fun o =>
        ⟨replies.reverse ++ o.value, o.cache, events.reverse ++ o.events⟩ := by
  induction vs generalizing c replies events with
  | nil => simp [answerAll, answerAllFrom, Except.map]
  | cons v vs ih =>
      rw [answerAll, answerAllFrom, answerAllFrom]
      cases answer c v with
      | error fault => rfl
      | ok o =>
          simp only
          rw [ih, ih o.cache [o.value]]
          cases answerAll o.cache vs with
          | error fault => rfl
          | ok os => simp [Except.map]

theorem answerAll_nil (c : ByteCache) : answerAll c [] = .ok ⟨[], c, []⟩ := rfl

theorem answerAll_cons (c : ByteCache) (v : Value) (vs : List Value) :
    answerAll c (v :: vs) =
      match answer c v with
      | .error fault => .error fault
      | .ok o => (answerAll o.cache vs).map fun os =>
          ⟨o.value :: os.value, os.cache, o.events ++ os.events⟩ := by
  rw [answerAll, answerAllFrom]
  cases answer c v with
  | error fault => rfl
  | ok o => simp [answerAllFrom_eq]

theorem answerAll_cons_eq_ok_iff {c : ByteCache} {v : Value} {vs : List Value}
    {outcome : Cache.Outcome Bytes Bytes (List Value)} :
    answerAll c (v :: vs) = .ok outcome ↔
      ∃ o os, answer c v = .ok o ∧ answerAll o.cache vs = .ok os ∧
        outcome = ⟨o.value :: os.value, os.cache, o.events ++ os.events⟩ := by
  rw [answerAll_cons]
  cases answer c v with
  | error fault => simp
  | ok o =>
      cases hos : answerAll o.cache vs with
      | error fault => simp [Except.map, hos]
      | ok os => simp [Except.map, hos, eq_comm]

theorem answerAll_append_eq_ok_iff {c : ByteCache} {vs ws : List Value}
    {outcome : Cache.Outcome Bytes Bytes (List Value)} :
    answerAll c (vs ++ ws) = .ok outcome ↔
      ∃ o os, answerAll c vs = .ok o ∧ answerAll o.cache ws = .ok os ∧
        outcome = ⟨o.value ++ os.value, os.cache, o.events ++ os.events⟩ := by
  induction vs generalizing c outcome with
  | nil =>
      constructor
      · intro h
        exact ⟨_, outcome, answerAll_nil c, h, rfl⟩
      · rintro ⟨o, os, ho, hos, rfl⟩
        cases (answerAll_nil c).symm.trans ho
        exact hos
  | cons v vs ih =>
      rw [List.cons_append, answerAll_cons_eq_ok_iff]
      constructor
      · rintro ⟨o, os, ho, hos, rfl⟩
        obtain ⟨o', os', ho', hos', rfl⟩ := ih.mp hos
        refine ⟨_, os', answerAll_cons_eq_ok_iff.mpr ⟨o, o', ho, ho', rfl⟩, hos', ?_⟩
        simp
      · rintro ⟨front, os, hfront, hos, rfl⟩
        obtain ⟨o, o', ho, ho', rfl⟩ := answerAll_cons_eq_ok_iff.mp hfront
        refine ⟨o, _, ho, ih.mpr ⟨o', os, ho', hos, rfl⟩, ?_⟩
        simp

/-- Pairs of byte strings, the ones used last in front. -/
abbrev PlainByteCache := PlainCache Bytes Bytes

/-- The reply is the one expected, or an error where none is given. -/
def Fulfils : Option Value → Value → Prop
  | some expected, reply => reply = expected
  | none, reply => ∃ text, reply = .error text

/-- The outcome is a reply that fulfils what is expected, and a cache that looks like the expected
pairs. -/
def Meets (result : Except Cache.Fault (Cache.Outcome Bytes Bytes Value))
    (expected : Option Value × PlainByteCache) : Prop :=
  ∃ o, result = .ok o ∧ o.cache.Sound ∧ Fulfils expected.1 o.value ∧ o.cache.plain = expected.2

/-- What a request leads to on a plain list. -/
def Request.expected (c : PlainByteCache) : Request → Option Value × PlainByteCache
  | .ping => (some (.simple "PONG"), c)
  | .echo message => (some message, c)
  | .get key => (some ((c.get key).1.elim .nullBulk .bulk), (c.get key).2)
  | .set key value => (some (.simple "OK"), (c.set key value).2)
  | .count keys => (some (.integer (Int64.ofNat (keys.countP c.contains))), c)
  | .size => (some (.integer (Int64.ofNat c.entries.length)), c)
  | .flush => (some (.simple "OK"), { c with entries := [] })
  | .info => (some (.bulk (Utf8.encode (infoText c.entries.length c.capacity))), c)
  | .commands => (some (.array []), c)

theorem meets_expected {c : ByteCache} (hc : c.Sound) (request : Request) :
    Meets (request.run c) (request.expected c.plain) := by
  cases request with
  | get key =>
      obtain ⟨value, c', hget, hsound, hplain⟩ := hc.get_plain key
      rw [Request.expected, hplain]
      cases value with
      | none => exact ⟨⟨.nullBulk, c', []⟩, by simp only [Request.run, hget], hsound, rfl, rfl⟩
      | some data => exact ⟨⟨.bulk data, c', []⟩, by simp only [Request.run, hget], hsound, rfl, rfl⟩
  | set key value =>
      obtain ⟨⟨present, c', events⟩, hset, hsound, hplain⟩ := hc.set_plain key value
      rw [Request.expected, hplain]
      exact ⟨⟨.ok, c', events⟩, by simp only [Request.run, hset], hsound, rfl, rfl⟩
  | flush => exact ⟨_, rfl, hc.clear_sound, rfl, Cache.plain_clear c⟩
  | count keys =>
      have hkeys : c.plain.contains = c.contains := funext hc.contains_plain
      rw [Request.expected, hkeys]
      exact ⟨_, rfl, hc, rfl, rfl⟩
  | size =>
      rw [Request.expected, hc.size_plain]
      exact ⟨_, rfl, hc, rfl, rfl⟩
  | info =>
      rw [Request.expected, hc.size_plain]
      exact ⟨_, rfl, hc, rfl, rfl⟩
  | ping => exact ⟨_, rfl, hc, rfl, rfl⟩
  | echo message => exact ⟨_, rfl, hc, rfl, rfl⟩
  | commands => exact ⟨_, rfl, hc, rfl, rfl⟩

theorem answer_of_request {c : ByteCache} {v : Value} {request : Request}
    {o : Cache.Outcome Bytes Bytes Value} (hv : Request.ofValue v = .ok request)
    (ho : request.run c = .ok o) : answer c v = .ok o := by
  rw [answer, hv]
  exact ho

theorem exists_answer {c : ByteCache} (hc : c.Sound) (v : Value) :
    ∃ o, answer c v = .ok o ∧ o.cache.Sound := by
  rw [answer]
  cases Request.ofValue v with
  | ok request =>
      obtain ⟨o, hrun, hsound, -⟩ := meets_expected hc request
      exact ⟨o, hrun, hsound⟩
  | error refusal => exact ⟨_, rfl, hc⟩

theorem exists_answerAll {c : ByteCache} (hc : c.Sound) (vs : List Value) :
    ∃ o, answerAll c vs = .ok o ∧ o.cache.Sound := by
  induction vs generalizing c with
  | nil => exact ⟨_, answerAll_nil c, hc⟩
  | cons v vs ih =>
      obtain ⟨o, ho, hsound⟩ := exists_answer hc v
      obtain ⟨os, hos, hsounds⟩ := ih hsound
      exact ⟨_, answerAll_cons_eq_ok_iff.mpr ⟨o, os, ho, hos, rfl⟩, hsounds⟩

end RespCache.Command
