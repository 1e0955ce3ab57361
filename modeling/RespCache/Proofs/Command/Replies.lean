import RespCache.Proofs.Command.Answers
import RespCache.Proofs.Resp.WellFormed
import RespCache.Proofs.Text.Breaks
import RespCache.Proofs.Text.Utf8

/-!
Which replies can be written so that they are read as themselves. What a client sends can be sent
back, and what the cache holds came from clients (`Fits`), so every reply is well formed but one: the
error that repeats the name of an unknown command has a line break in its line if the name has one
(`Breaking`).
-/

namespace RespCache.Command

open Resp Value

/-! ### What requests bring along -/

/-- The bytes can be the payload of a bulk string. -/
def Payload (data : Bytes) : Prop := data.length ≤ 512 * 1024 * 1024

/-- What the request brings along can be sent back: a message as it is, a value as a bulk string. -/
def Request.Sendable : Request → Prop
  | .echo message => message.WellFormed
  | .set _ value => Payload value
  | _ => True

/-- A request that brings along what can be sent back, or a refusal that is one line unless it is
that of an unknown name. -/
def Answerable : Except Refusal Request → Prop
  | .ok request => request.Sendable
  | .error refusal => '\r' ∉ refusal.message.toList ∨ ∃ name, refusal = .unknown name

theorem answerable_arity {command : String} (h : '\r' ∉ command.toList) :
    Answerable (.error (.arity command)) := by
  left
  show '\r' ∉ ("ERR wrong number of arguments for '" ++ command ++ "' command").toList
  simp [h]

section Arguments

variable {args : List Value}

theorem answerable_ofPing (hargs : ∀ v ∈ args, v.WellFormed) : Answerable (ofPing args) := by
  unfold ofPing
  split
  · trivial
  · exact hargs _ List.mem_cons_self
  · exact answerable_arity (by simp)

theorem answerable_ofEcho (hargs : ∀ v ∈ args, v.WellFormed) : Answerable (ofEcho args) := by
  unfold ofEcho
  split
  · exact hargs _ List.mem_cons_self
  · exact answerable_arity (by simp)

theorem answerable_ofGet : Answerable (ofGet args) := by
  unfold ofGet
  split
  · trivial
  · left
    show '\r' ∉ "ERR invalid key type".toList
    simp
  · exact answerable_arity (by simp)

theorem answerable_ofSet (hargs : ∀ v ∈ args, v.WellFormed) : Answerable (ofSet args) := by
  unfold ofSet
  split
  case h_1 key value => exact hargs (.bulk value) (by simp) 0 _ .self
  case h_2 =>
      left
      show '\r' ∉ "ERR invalid key or value type".toList
      simp
  case h_3 =>
      left
      show '\r' ∉ "ERR syntax error".toList
      simp
  case h_4 => exact answerable_arity (by simp)

theorem answerable_ofExists : Answerable (ofExists args) := by
  unfold ofExists
  split
  · exact answerable_arity (by simp)
  · trivial

theorem answerable_ofSize : Answerable (ofSize args) := by
  unfold ofSize
  split
  · trivial
  · exact answerable_arity (by simp)

theorem answerable_ofFlush {command : String} (hcommand : '\r' ∉ command.toList) :
    Answerable (ofFlush command args) := by
  unfold ofFlush
  split
  · trivial
  · trivial
  · exact answerable_arity hcommand

theorem answerable_ofName (hargs : ∀ v ∈ args, v.WellFormed) (name : String) :
    Answerable (ofName name args) := by
  unfold ofName
  refine iteInduction (fun _ => answerable_ofPing hargs) fun _ => ?_
  refine iteInduction (fun _ => answerable_ofEcho hargs) fun _ => ?_
  refine iteInduction (fun _ => answerable_ofGet) fun _ => ?_
  refine iteInduction (fun _ => answerable_ofSet hargs) fun _ => ?_
  refine iteInduction (fun _ => answerable_ofExists) fun _ => ?_
  refine iteInduction (fun _ => answerable_ofSize) fun _ => ?_
  refine iteInduction (fun _ => answerable_ofFlush (by simp)) fun _ => ?_
  refine iteInduction (fun _ => answerable_ofFlush (by simp)) fun _ => ?_
  refine iteInduction (fun _ => trivial) fun _ => ?_
  exact iteInduction (fun _ => trivial) fun _ => .inr ⟨name, rfl⟩

end Arguments

theorem answerable_ofValue {v : Value} (hv : v.WellFormed) : Answerable (Request.ofValue v) := by
  unfold Request.ofValue
  split
  case h_1 name args =>
      exact answerable_ofName (fun u hu => hv.item (List.mem_cons_of_mem _ hu)) (nameOf name)
  case h_2 =>
      left
      show '\r' ∉ "ERR invalid command".toList
      simp
  case h_3 =>
      left
      show '\r' ∉ "ERR invalid command format".toList
      simp

/-! ### What the cache holds -/

/-- The cache is sound, its capacity is a machine word, and its values can be payloads. -/
structure Fits (c : ByteCache) : Prop where
  sound : c.Sound
  capacity_lt : c.capacity < UInt64.size
  values : ∀ p ∈ c.plain.entries, Payload p.2

theorem fits_empty {capacity : Nat} (hpos : 0 < capacity) (hword : capacity < UInt64.size) :
    Fits ⟨∅, .empty, capacity⟩ where
  sound := Cache.sound_empty hpos
  capacity_lt := hword
  values := by
    rw [Cache.plain_empty]
    exact List.forall_mem_nil _

theorem length_toDigits_le {n : Nat} (hn : n < UInt64.size) : (Nat.toDigits 10 n).length ≤ 20 :=
  (Nat.length_toDigits_le_iff (by decide) (by decide)).mpr (Nat.lt_trans hn (by decide))

theorem length_infoText_le {size capacity : Nat} (hsize : size < UInt64.size)
    (hcapacity : capacity < UInt64.size) : (infoText size capacity).length ≤ 1000 := by
  have hleft := length_toDigits_le hsize
  have hright := length_toDigits_le hcapacity
  rw [← String.length_toList]
  show ("# Server\r\n" ++ "lrud_version:" ++ "0.1.0" ++ "\r\n" ++ "\r\n" ++ "# Keyspace\r\n" ++
    "cache_size:" ++ toString size ++ "\r\n" ++ "cache_capacity:" ++ toString capacity ++
    "\r\n").toList.length ≤ 1000
  simp only [String.toList_append, List.length_append, Nat.toString_eq_repr, Nat.toList_repr]
  simp
  omega

/-! ### Replies -/

theorem wellFormed_simple {text : String} (h : '\r' ∉ text.toList) : (simple text).WellFormed :=
  (wellFormed_iff_allowed (by simp)).mpr (Text.not_break_of_cr_not_mem h)

theorem wellFormed_error {text : String} (h : '\r' ∉ text.toList) : (error text).WellFormed :=
  (wellFormed_iff_allowed (by simp)).mpr (Text.not_break_of_cr_not_mem h)

theorem wellFormed_bulk {data : Bytes} (h : Payload data) : (bulk data).WellFormed :=
  (wellFormed_iff_allowed (by simp)).mpr h

namespace Fits

variable {c : ByteCache}

theorem wellFormed_info (hc : Fits c) :
    (bulk (Utf8.encode (infoText c.size c.capacity))).WellFormed := by
  have hsize : c.size ≤ c.capacity := by
    obtain ⟨-, s, hs⟩ := hc.sound
    exact Nat.le_trans (Nat.le_of_eq hs.size) hs.length_le
  have hcapacity := hc.capacity_lt
  have htext := length_infoText_le (Nat.lt_of_le_of_lt hsize hcapacity) hcapacity
  have hbytes := Utf8.length_encode_le (infoText c.size c.capacity)
  exact wellFormed_bulk (Nat.le_trans hbytes (by omega))

theorem get (hc : Fits c) (key : Bytes) :
    ∃ value c', c.get key = .ok (value, c') ∧ Fits c' ∧
      ∀ data, value = some data → Payload data := by
  obtain ⟨value, c', hget, hsound, hplain⟩ := hc.sound.get_plain key
  have hcapacity := c.plain.capacity_step (.get key)
  obtain ⟨hvalue, hvalues⟩ := PlainCache.forall_get hc.values key
  simp only [PlainCache.step, hplain] at hcapacity hvalue hvalues
  exact ⟨value, c', hget, ⟨hsound, Nat.lt_of_le_of_lt (Nat.le_of_eq hcapacity) hc.capacity_lt,
    hvalues⟩, hvalue⟩

theorem set (hc : Fits c) (key : Bytes) {value : Bytes} (hvalue : Payload value) :
    ∃ o, c.set key value = .ok o ∧ Fits o.cache := by
  obtain ⟨o, hset, hsound, hplain⟩ := hc.sound.set_plain key value
  have hcapacity := c.plain.capacity_step (.set key value)
  have hvalues := PlainCache.forall_set hc.values key hvalue
  simp only [PlainCache.step, hplain] at hcapacity hvalues
  exact ⟨o, hset, hsound, Nat.lt_of_le_of_lt (Nat.le_of_eq hcapacity) hc.capacity_lt, hvalues⟩

theorem clear (hc : Fits c) : Fits c.clear.cache where
  sound := hc.sound.clear_sound
  capacity_lt := hc.capacity_lt
  values := by
    rw [Cache.plain_clear c]
    exact List.forall_mem_nil _

theorem run (hc : Fits c) {request : Request} (hrequest : request.Sendable) :
    ∃ o, request.run c = .ok o ∧ Fits o.cache ∧ o.value.WellFormed := by
  cases request with
  | ping => exact ⟨_, rfl, hc, wellFormed_simple (by simp)⟩
  | echo message => exact ⟨_, rfl, hc, hrequest⟩
  | get key =>
      obtain ⟨value, c', hget, hfits, hvalue⟩ := hc.get key
      cases value with
      | none =>
          refine ⟨⟨.nullBulk, c', []⟩, by simp only [Request.run, hget], hfits, ?_⟩
          exact (wellFormed_iff_allowed (by simp)).mpr trivial
      | some data =>
          refine ⟨⟨.bulk data, c', []⟩, by simp only [Request.run, hget], hfits, ?_⟩
          exact wellFormed_bulk (hvalue data rfl)
  | set key value =>
      obtain ⟨⟨present, c', events⟩, hset, hfits⟩ := hc.set key hrequest
      exact ⟨⟨.ok, c', events⟩, by simp only [Request.run, hset], hfits, wellFormed_simple (by simp)⟩
  | count keys => exact ⟨_, rfl, hc, (wellFormed_iff_allowed (by simp)).mpr trivial⟩
  | size => exact ⟨_, rfl, hc, (wellFormed_iff_allowed (by simp)).mpr trivial⟩
  | flush => exact ⟨_, rfl, hc.clear, wellFormed_simple (by simp)⟩
  | info => exact ⟨_, rfl, hc, hc.wellFormed_info⟩
  | commands => exact ⟨_, rfl, hc, wellFormed_array_nil⟩

end Fits

/-- The value is a command of an unknown name, and there is a line break in the name. -/
def Breaking (v : Value) : Prop :=
  ∃ name, Request.ofValue v = .error (.unknown name) ∧ ['\r', '\n'] <:+: name.toList

theorem wellFormed_unknown_iff {name : String} :
    (error (Refusal.unknown name).message).WellFormed ↔ ¬['\r', '\n'] <:+: name.toList := by
  rw [wellFormed_iff_allowed (by simp)]
  show ¬['\r', '\n'] <:+: ("ERR unknown command '" ++ name ++ "'").toList ↔ _
  -- the name stands between quotes, so no line break arises where the texts meet
  rw [String.toList_append, String.toList_append, Text.break_append_iff (.inr (by decide)),
    Text.break_append_iff (.inl (by decide))]
  have hfront : ¬['\r', '\n'] <:+: "ERR unknown command '".toList := by decide
  have hback : ¬['\r', '\n'] <:+: "'".toList := by decide
  rw [or_iff_right hfront, or_iff_left hback]

/-- The refusal of an unknown name is the only reply that can break its line. -/
theorem Fits.answer {c : ByteCache} (hc : Fits c) {v : Value} (hv : v.WellFormed) :
    ∃ o, answer c v = .ok o ∧ Fits o.cache ∧ (o.value.WellFormed ↔ ¬Breaking v) := by
  have hcan := answerable_ofValue hv
  rw [Command.answer]
  cases hvalue : Request.ofValue v with
  | ok request =>
      rw [hvalue] at hcan
      obtain ⟨o, hrun, hfits, hreply⟩ := hc.run hcan
      refine ⟨o, hrun, hfits, iff_of_true hreply ?_⟩
      rintro ⟨name, hname, -⟩
      cases hvalue.symm.trans hname
  | error refusal =>
      rw [hvalue] at hcan
      refine ⟨_, rfl, hc, ?_⟩
      rcases hcan with hline | ⟨name, rfl⟩
      · have hreply := wellFormed_error hline
        refine iff_of_true hreply ?_
        rintro ⟨name, hname, hbreak⟩
        cases hvalue.symm.trans hname
        exact wellFormed_unknown_iff.mp hreply hbreak
      · rw [wellFormed_unknown_iff]
        constructor
        · rintro h ⟨name', hname, hbreak⟩
          cases hvalue.symm.trans hname
          exact h hbreak
        · exact fun h hbreak => h ⟨name, hvalue, hbreak⟩

theorem Fits.answerAll {c : ByteCache} (hc : Fits c) {vs : List Value}
    (hvs : ∀ v ∈ vs, v.WellFormed) :
    ∃ o, answerAll c vs = .ok o ∧ Fits o.cache ∧ o.value.length = vs.length ∧
      ((∀ reply ∈ o.value, reply.WellFormed) ↔ ∀ v ∈ vs, ¬Breaking v) := by
  induction vs generalizing c with
  | nil => exact ⟨_, answerAll_nil c, hc, rfl, by simp⟩
  | cons v vs ih =>
      rw [List.forall_mem_cons] at hvs
      obtain ⟨o, ho, hfits, hreply⟩ := hc.answer hvs.1
      obtain ⟨os, hos, hfitss, hlength, hreplies⟩ := ih hfits hvs.2
      refine ⟨_, answerAll_cons_eq_ok_iff.mpr ⟨o, os, ho, hos, rfl⟩, hfitss, ?_, ?_⟩
      · rw [List.length_cons, List.length_cons, hlength]
      · rw [List.forall_mem_cons, List.forall_mem_cons, hreply, hreplies]

end RespCache.Command
