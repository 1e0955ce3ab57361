import RespCache.Proofs.Command.Answers
import RespCache.Proofs.Server.Arrivals

/-!
The log of what many clients send. It has what the bytes of each client bring, in the order in which
the last bytes arrive, and there is only one such log (`Merges.eq`). Its front part is what the first
read brings (`Merges.cons`), so that the log is made read by read, and so are the replies to it
(`repliesByRead_cons`).
-/

namespace RespCache

open Resp Command

structure Read where
  client : Nat
  data : Bytes

/-- The reads of one client, when `time` bytes have arrived before all of these reads. -/
def readsOf (client time : Nat) : List Read → List (List Stamped)
  | [] => []
  | r :: reads =>
    let later := readsOf client (time + r.data.length) reads
    if r.client = client then r.data.zipIdx time :: later else later

/-- The log has what the bytes of each client bring, the bytes in `kept` being there before the
reads, and it has it in the order in which it arrives. -/
structure Merges (log : List Arrival) (kept : Nat → List Stamped) (time : Nat)
    (reads : List Read) : Prop where
  own : ∀ client, log.filter (·.client = client) =
    (stretches (kept client) (readsOf client time reads)).flatMap (arrivals client)
  ordered : (log.map Arrival.time).Pairwise (· < ·)
  after : ∀ a ∈ log, time ≤ a.time

def Input.answer (c : ByteCache) : Input → Except Cache.Fault (Value × ByteCache)
  | .command v =>
    match Command.answer c v with
    | .error fault => .error fault
    | .ok o => .ok (o.value, o.cache)
  | .malformed e => .ok (.error ("ERR " ++ e.message), c)

def answerInputs (c : ByteCache) : List Input → Except Cache.Fault (List Value × ByteCache)
  | [] => .ok ([], c)
  | i :: is =>
    match i.answer c with
    | .error fault => .error fault
    | .ok (reply, c) =>
      match answerInputs c is with
      | .error fault => .error fault
      | .ok (replies, c) => .ok (reply :: replies, c)

/-- Deals the replies out to the reads: each read gets those to what arrived with its bytes. -/
def repliesByRead (log : List (Arrival × Value)) (time : Nat) : List Read → List (List Value)
  | [] => []
  | r :: reads =>
    let later := time + r.data.length
    ((log.filter fun p => time ≤ p.1.time ∧ p.1.time < later).map Prod.snd) ::
      repliesByRead log later reads

/-! ### Answering inputs -/

section Answering

variable {c c' c'' : ByteCache} {i : Input} {is js : List Input} {reply : Value}
  {replies later : List Value}

theorem Input.answer_command {v : Value} {o : Cache.Outcome Bytes Bytes Value}
    (ho : Command.answer c v = .ok o) :
    (Input.command v).answer c = .ok (o.value, o.cache) := by
  simp only [Input.answer, ho]

theorem answerInputs_cons (hi : i.answer c = .ok (reply, c'))
    (his : answerInputs c' is = .ok (replies, c'')) :
    answerInputs c (i :: is) = .ok (reply :: replies, c'') := by
  rw [answerInputs, hi]
  simp only [his]

theorem exists_of_answerInputs_cons (h : answerInputs c (i :: is) = .ok (replies, c'')) :
    ∃ reply c' later, i.answer c = .ok (reply, c') ∧ answerInputs c' is = .ok (later, c'') ∧
      replies = reply :: later := by
  rw [answerInputs] at h
  split at h
  case h_1 => cases h
  case h_2 reply c' hi =>
    split at h
    case h_1 => cases h
    case h_2 later _ his =>
      cases h
      exact ⟨reply, c', later, hi, his, rfl⟩

theorem answerInputs_append (his : answerInputs c is = .ok (replies, c'))
    (hjs : answerInputs c' js = .ok (later, c'')) :
    answerInputs c (is ++ js) = .ok (replies ++ later, c'') := by
  induction is generalizing c replies with
  | nil =>
      cases his
      exact hjs
  | cons i is ih =>
      obtain ⟨reply, mid, rest, hi, hrest, rfl⟩ := exists_of_answerInputs_cons his
      exact answerInputs_cons hi (ih hrest)

theorem length_of_answerInputs (his : answerInputs c is = .ok (replies, c')) :
    replies.length = is.length := by
  induction is generalizing c replies with
  | nil =>
      cases his
      rfl
  | cons i is ih =>
      obtain ⟨reply, mid, rest, hi, hrest, rfl⟩ := exists_of_answerInputs_cons his
      rw [List.length_cons, List.length_cons, ih hrest]

theorem answerInputs_of_answerAll {o : Cache.Outcome Bytes Bytes (List Value)} {vs : List Value}
    (ho : answerAll c vs = .ok o) (error : Option ProtocolError) :
    answerInputs c (vs.map .command ++ (error.map .malformed).toList) =
      .ok (o.value ++ (error.map errorReply).toList, o.cache) := by
  induction vs generalizing c o with
  | nil =>
      cases (answerAll_nil c).symm.trans ho
      cases error <;> rfl
  | cons v vs ih =>
      obtain ⟨o₁, os, ho₁, hos, rfl⟩ := answerAll_cons_eq_ok_iff.mp ho
      exact answerInputs_cons (Input.answer_command ho₁) (ih hos)

end Answering

/-! ### The log -/

section Log

variable {kept : Nat → List Stamped} {time : Nat} {r : Read} {reads : List Read}

theorem merges_nil (hwaiting : ∀ client, parse (bytesOf (kept client)) = .incomplete) :
    Merges [] kept time [] where
  own client := by simp [readsOf, stretches, arrivals_of_incomplete (hwaiting client)]
  ordered := .nil
  after := nofun

theorem times_sublist_range' (client : Nat) {s : List Stamped}
    (hs : parse (bytesOf s) = .incomplete) (data : Bytes) (time : Nat) :
    ((arrivals client (s ++ data.zipIdx time)).map Arrival.time).Sublist
      (List.range' time data.length) := by
  rw [← List.zipIdx_map_snd time data]
  exact times_append_sublist hs _

/-- What arrives with a read has its place among the bytes of the read. -/
theorem time_of_mem_arrivals {client : Nat} {s : List Stamped} (hs : parse (bytesOf s) = .incomplete)
    {data : Bytes} {a : Arrival} (ha : a ∈ arrivals client (s ++ data.zipIdx time)) :
    time ≤ a.time ∧ a.time < time + data.length :=
  List.mem_range'_1.mp ((times_sublist_range' client hs data time).mem (List.mem_map_of_mem ha))

theorem Merges.cons {log : List Arrival} {rest : List Stamped}
    (hwaiting : parse (bytesOf (kept r.client)) = .incomplete)
    (hrest : ∀ later,
      (stretches (kept r.client) (r.data.zipIdx time :: later)).flatMap (arrivals r.client) =
        arrivals r.client (kept r.client ++ r.data.zipIdx time) ++
          (stretches rest later).flatMap (arrivals r.client))
    (h : Merges log (Function.update kept r.client rest) (time + r.data.length) reads) :
    Merges (arrivals r.client (kept r.client ++ r.data.zipIdx time) ++ log) kept time
      (r :: reads) where
  own client := by
    have hlog := h.own client
    rw [List.filter_append, hlog, readsOf, Function.update_apply]
    by_cases hclient : r.client = client
    · subst hclient
      have hfront : ∀ a ∈ arrivals r.client (kept r.client ++ r.data.zipIdx time),
          decide (a.client = r.client) = true := by
        intro a ha
        exact decide_eq_true (client_of_mem_arrivals ha)
      rw [List.filter_eq_self.mpr hfront]
      simp [hrest]
    · have hfront : ∀ a ∈ arrivals r.client (kept r.client ++ r.data.zipIdx time),
          ¬decide (a.client = client) = true := by
        intro a ha
        rw [client_of_mem_arrivals ha]
        simpa using hclient
      rw [List.filter_eq_nil_iff.mpr hfront]
      simp [hclient, Ne.symm hclient]
  ordered := by
    rw [List.map_append, List.pairwise_append]
    have hfront := times_sublist_range' r.client hwaiting r.data time
    refine ⟨List.Pairwise.sublist hfront List.pairwise_lt_range', h.ordered, ?_⟩
    intro t ht t' ht'
    obtain ⟨a, ha, rfl⟩ := List.mem_map.mp ht
    obtain ⟨b, hb, rfl⟩ := List.mem_map.mp ht'
    exact Nat.lt_of_lt_of_le (time_of_mem_arrivals hwaiting ha).2 (h.after b hb)
  after a ha := by
    rcases List.mem_append.mp ha with ha | ha
    · exact (time_of_mem_arrivals hwaiting ha).1
    · exact Nat.le_of_add_right_le (h.after a ha)

/-- What arrived earlier is answered earlier. -/
theorem repliesByRead_append_of_before {front later : List (Arrival × Value)}
    (h : ∀ p ∈ front, p.1.time < time) (reads : List Read) :
    repliesByRead (front ++ later) time reads = repliesByRead later time reads := by
  induction reads generalizing time with
  | nil => rfl
  | cons r reads ih =>
      have hnone : ∀ p ∈ front,
          ¬decide (time ≤ p.1.time ∧ p.1.time < time + r.data.length) = true := by
        intro p hp
        have hbefore := h p hp
        simp only [decide_eq_true_eq]
        omega
      have hlater : ∀ p ∈ front, p.1.time < time + r.data.length := by
        intro p hp
        exact Nat.lt_add_right _ (h p hp)
      rw [repliesByRead, repliesByRead, List.filter_append, List.filter_eq_nil_iff.mpr hnone,
        List.nil_append, ih hlater]

theorem repliesByRead_cons {front log : List Arrival} {replies later : List Value}
    (hlength : replies.length = front.length)
    (hfront : ∀ a ∈ front, time ≤ a.time ∧ a.time < time + r.data.length)
    (hlog : ∀ a ∈ log, time + r.data.length ≤ a.time) :
    repliesByRead ((front ++ log).zip (replies ++ later)) time (r :: reads) =
      replies :: repliesByRead (log.zip later) (time + r.data.length) reads := by
  have hnow : ∀ p ∈ front.zip replies,
      decide (time ≤ p.1.time ∧ p.1.time < time + r.data.length) = true := by
    intro p hp
    exact decide_eq_true (hfront p.1 (List.of_mem_zip hp).1)
  have hnot : ∀ p ∈ log.zip later,
      ¬decide (time ≤ p.1.time ∧ p.1.time < time + r.data.length) = true := by
    intro p hp
    have hlater := hlog p.1 (List.of_mem_zip hp).1
    simp only [decide_eq_true_eq]
    omega
  have hbefore : ∀ p ∈ front.zip replies, p.1.time < time + r.data.length := by
    intro p hp
    exact (hfront p.1 (List.of_mem_zip hp).1).2
  rw [List.zip_append hlength.symm, repliesByRead, repliesByRead_append_of_before hbefore,
    List.filter_append, List.filter_eq_self.mpr hnow, List.filter_eq_nil_iff.mpr hnot,
    List.append_nil, List.map_snd_zip (Nat.le_of_eq hlength)]

/-- The commands of a client are the values in the client's own bytes. -/
theorem Merges.commands_eq {log : List Arrival} (h : Merges log kept time reads) (client : Nat) :
    ((log.filterMap Arrival.command?).filter (·.1 = client)).map Prod.snd =
      (stretches (kept client) (readsOf client time reads)).flatMap
        fun s => (parseAll (bytesOf s)).values := by
  have hown : (log.filterMap Arrival.command?).filter (·.1 = client) =
      (log.filter (·.client = client)).filterMap Arrival.command? := by
    rw [List.filter_filterMap, List.filterMap_filter]
    refine List.filterMap_congr fun a _ => ?_
    cases hinput : a.input <;> simp [Arrival.command?, hinput, Option.filter]
  rw [hown, h.own, List.filterMap_flatMap, List.map_flatMap]
  simp [filterMap_command?_arrivals]

/-- There is only one such log. -/
theorem Merges.eq {log log' : List Arrival} (h : Merges log kept time reads)
    (h' : Merges log' kept time reads) : log = log' := by
  have hmem (a : Arrival) : a ∈ log ↔ a ∈ log' := by
    have hown : log.filter (·.client = a.client) = log'.filter (·.client = a.client) := by
      rw [h.own, h'.own]
    have hfiltered := congrArg (a ∈ ·) hown
    simpa using hfiltered
  have hsorted := List.pairwise_map.mp h.ordered
  have hsorted' := List.pairwise_map.mp h'.ordered
  have hne {a b : Arrival} (hab : a.time < b.time) : a ≠ b := by
    rintro rfl
    exact Nat.lt_irrefl _ hab
  have hperm : log.Perm log' :=
    (List.perm_ext_iff_of_nodup (hsorted.imp hne) (hsorted'.imp hne)).mpr hmem
  apply hperm.eq_of_pairwise _ hsorted hsorted'
  intro a b _ _ hab hba
  exact absurd hba hab.asymm

end Log

end RespCache
