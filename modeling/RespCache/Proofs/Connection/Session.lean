import RespCache.Connection
import RespCache.Proofs.Command.Answers
import RespCache.Proofs.Resp.Stream

/-!
A connection from its first read on. However the bytes are cut into reads, what is written back and
what becomes of the cache is decided by the values that the whole of the bytes holds. Between two
reads the buffer holds no whole value, and its framer stands at it; this is what the induction on
the reads carries along.
-/

namespace RespCache

open Resp Command

namespace Connection

section Receive

variable {f : Framer} {buffer : Bytes}

theorem ofBatch_drain_of_idle (hf : f.At buffer) (hidle : (parseAll buffer).error = none) :
    ∃ framer, ofBatch (f.drain buffer) = ⟨framer, (parseAll buffer).rest⟩ ∧
      framer.At (parseAll buffer).rest := by
  obtain ⟨framer, hdrain, hrest⟩ := hf.drain_eq
  refine ⟨framer, ?_, hrest⟩
  simp only [ofBatch, hdrain, hidle]

theorem ofBatch_drain_of_error (hf : f.At buffer) {e : ProtocolError}
    (herror : (parseAll buffer).error = some e) : ofBatch (f.drain buffer) = {} := by
  obtain ⟨framer, hdrain, -⟩ := hf.drain_eq
  have hdrained : (f.drain buffer).error = some e := by rw [hdrain, herror]
  have hframer := Framer.framer_drainFrom_of_error hdrained
  rw [← Framer.drain, hdrain] at hframer
  simp only [ofBatch, hdrain, herror, hframer]

theorem at_ofBatch_drain (hf : f.At buffer) :
    (ofBatch (f.drain buffer)).framer.At (ofBatch (f.drain buffer)).buffer := by
  cases herror : (parseAll buffer).error with
  | none =>
      obtain ⟨framer, hbatch, hrest⟩ := ofBatch_drain_of_idle hf herror
      rw [hbatch]
      exact hrest
  | some e =>
      rw [ofBatch_drain_of_error hf herror]
      exact Framer.at_start []

/-- A read is answered by the replies to the commands at the front of the buffer, and by one to the
error behind them. -/
theorem receive_eq {k : Connection} {cache : ByteCache} {data : Bytes}
    {o : Cache.Outcome Bytes Bytes (List Value)} (hk : k.framer.At k.buffer)
    (ho : answerAll cache (parseAll (k.buffer ++ data)).values = .ok o) :
    ∃ events, k.receive cache data = .ok ⟨ofBatch (k.framer.drain (k.buffer ++ data)), o.cache,
      (parseAll (k.buffer ++ data)).values,
      o.value ++ ((parseAll (k.buffer ++ data)).error.map errorReply).toList, events⟩ := by
  obtain ⟨framer, hdrain, -⟩ := (hk.append data).drain_eq
  simp only [receive, hdrain, ho]
  exact ⟨_, rfl⟩

end Receive

/-- With a sound cache every read is worked off. -/
theorem exists_turn {cache : ByteCache} (hcache : cache.Sound) (k : Connection) (data : Bytes) :
    ∃ turn, k.receive cache data = .ok turn ∧ turn.cache.Sound := by
  obtain ⟨o, ho, hsound⟩ := exists_answerAll hcache (k.framer.drain (k.buffer ++ data)).commands
  rw [receive]
  simp only [ho]
  exact ⟨_, rfl, hsound⟩

/-- The commands are carried out on the cache, and what they are answered is written back. -/
theorem exists_answerAll_of_receive {k : Connection} {cache : ByteCache} {data : Bytes} {turn : Turn}
    (h : k.receive cache data = .ok turn) :
    ∃ o, answerAll cache turn.commands = .ok o ∧ turn.cache = o.cache ∧
      o.value <+: turn.replies := by
  unfold receive at h
  dsimp only at h
  split at h
  case h_1 => cases h
  case h_2 ho =>
    cases h
    exact ⟨_, ho, rfl, List.prefix_append _ _⟩

theorem connection_of_receive {k : Connection} {cache : ByteCache} {data : Bytes} {turn : Turn}
    (h : k.receive cache data = .ok turn) :
    turn.connection = ofBatch (k.framer.drain (k.buffer ++ data)) := by
  unfold receive at h
  dsimp only at h
  split at h
  · cases h
  · cases h
    rfl

end Connection

/-- A connection, the cache behind it, and everything written back. -/
structure Session where
  connection : Connection
  cache : ByteCache
  wire : Bytes

namespace Session

def start (cache : ByteCache) : Session := ⟨{}, cache, []⟩

def receive (s : Session) (data : Bytes) : Except Cache.Fault Session :=
  match s.connection.receive s.cache data with
  | .error fault => .error fault
  | .ok turn => .ok ⟨turn.connection, turn.cache, s.wire ++ turn.wire⟩

def receiveAll (s : Session) : List Bytes → Except Cache.Fault Session
  | [] => .ok s
  | data :: reads =>
    match s.receive data with
    | .error fault => .error fault
    | .ok s => s.receiveAll reads

theorem receiveAll_cons_of_ok {s mid : Session} {data : Bytes} (h : s.receive data = .ok mid)
    (reads : List Bytes) : s.receiveAll (data :: reads) = mid.receiveAll reads := by
  rw [receiveAll, h]

theorem receiveAll_append_of_ok {s mid : Session} {before : List Bytes}
    (h : s.receiveAll before = .ok mid) (after : List Bytes) :
    s.receiveAll (before ++ after) = mid.receiveAll after := by
  induction before generalizing s with
  | nil =>
      cases h
      rfl
  | cons data before ih =>
      rw [receiveAll] at h
      cases hread : s.receive data with
      | error fault =>
          rw [hread] at h
          cases h
      | ok next =>
          rw [hread] at h
          rw [List.cons_append, receiveAll_cons_of_ok hread]
          exact ih h

/-! ### Sound caches -/

theorem exists_receive {s : Session} (hs : s.cache.Sound) (data : Bytes) :
    ∃ next, s.receive data = .ok next ∧ next.cache.Sound ∧ s.wire <+: next.wire := by
  obtain ⟨turn, hturn, hsound⟩ := Connection.exists_turn hs s.connection data
  rw [receive, hturn]
  exact ⟨_, rfl, hsound, List.prefix_append _ _⟩

/-- All reads are worked off, and what has been written stays. -/
theorem exists_receiveAll {s : Session} (hs : s.cache.Sound) (reads : List Bytes) :
    ∃ final, s.receiveAll reads = .ok final ∧ s.wire <+: final.wire := by
  induction reads generalizing s with
  | nil => exact ⟨s, rfl, List.prefix_rfl⟩
  | cons data reads ih =>
      obtain ⟨next, hnext, hsound, hwire⟩ := exists_receive hs data
      obtain ⟨final, hfinal, hwires⟩ := ih hsound
      rw [receiveAll_cons_of_ok hnext]
      exact ⟨final, hfinal, hwire.trans hwires⟩

/-! ### Reads -/

section Reads

variable {f : Framer} {buffer : Bytes} {cache : ByteCache}
  {o : Cache.Outcome Bytes Bytes (List Value)} {e : ProtocolError}

theorem receive_of_idle (hf : f.At buffer) {data : Bytes}
    (hidle : (parseAll (buffer ++ data)).error = none)
    (ho : answerAll cache (parseAll (buffer ++ data)).values = .ok o) (wire : Bytes) :
    ∃ framer, receive ⟨⟨f, buffer⟩, cache, wire⟩ data =
        .ok ⟨⟨framer, (parseAll (buffer ++ data)).rest⟩, o.cache, wire ++ encodeAll o.value⟩ ∧
      framer.At (parseAll (buffer ++ data)).rest := by
  obtain ⟨events, hturn⟩ := @Connection.receive_eq ⟨f, buffer⟩ cache data o hf ho
  obtain ⟨framer, hbatch, hrest⟩ := Connection.ofBatch_drain_of_idle (hf.append data) hidle
  refine ⟨framer, ?_, hrest⟩
  simp [receive, hturn, hbatch, hidle, Turn.wire]

theorem receive_of_error (hf : f.At buffer) {data : Bytes}
    (herror : (parseAll (buffer ++ data)).error = some e)
    (ho : answerAll cache (parseAll (buffer ++ data)).values = .ok o) (wire : Bytes) :
    receive ⟨⟨f, buffer⟩, cache, wire⟩ data =
      .ok ⟨{}, o.cache, wire ++ (encodeAll o.value ++ (errorReply e).encode)⟩ := by
  obtain ⟨events, hturn⟩ := @Connection.receive_eq ⟨f, buffer⟩ cache data o hf ho
  have hbatch := Connection.ofBatch_drain_of_error (hf.append data) herror
  simp [receive, hturn, hbatch, herror, Turn.wire, encodeAll_append]

/-- While nothing is wrong, all reads together come to what the whole of their bytes holds. -/
theorem receiveAll_of_idle {reads : List Bytes} (hf : f.At buffer)
    (hbuffer : parse buffer = .incomplete)
    (hidle : (parseAll (buffer ++ reads.flatten)).error = none)
    (ho : answerAll cache (parseAll (buffer ++ reads.flatten)).values = .ok o) (wire : Bytes) :
    ∃ framer, receiveAll ⟨⟨f, buffer⟩, cache, wire⟩ reads =
      .ok ⟨⟨framer, (parseAll (buffer ++ reads.flatten)).rest⟩, o.cache,
        wire ++ encodeAll o.value⟩ := by
  induction reads generalizing f buffer cache o wire with
  | nil =>
      rw [List.flatten_nil, List.append_nil, parseAll_of_incomplete hbuffer] at ho ⊢
      cases (answerAll_nil cache).symm.trans ho
      exact ⟨f, by simp [receiveAll]⟩
  | cons data reads ih =>
      rw [List.flatten_cons, ← List.append_assoc] at hidle ho ⊢
      cases hfront : (parseAll (buffer ++ data)).error with
      | some e =>
          rw [parseAll_append_of_error hfront] at hidle
          cases hidle
      | none =>
          rw [parseAll_append_of_idle hfront] at hidle ho ⊢
          obtain ⟨o₁, o₂, ho₁, ho₂, rfl⟩ := answerAll_append_eq_ok_iff.mp ho
          obtain ⟨f', hread, hf'⟩ := receive_of_idle hf hfront ho₁ wire
          obtain ⟨framer, hreads⟩ := ih hf' (parse_rest_of_idle hfront) hidle ho₂ _
          refine ⟨framer, ?_⟩
          rw [receiveAll_cons_of_ok hread, hreads, List.append_assoc, ← encodeAll_append]

/-- The first error is answered at the end of some read, behind the answers to the values in front
of it; the connection is then a new one. -/
theorem receiveAll_of_error {reads : List Bytes} (hf : f.At buffer)
    (hbuffer : parse buffer = .incomplete)
    (herror : (parseAll (buffer ++ reads.flatten)).error = some e)
    (ho : answerAll cache (parseAll (buffer ++ reads.flatten)).values = .ok o) (wire : Bytes) :
    ∃ before after, reads = before ++ after ∧
      receiveAll ⟨⟨f, buffer⟩, cache, wire⟩ before =
        .ok ⟨{}, o.cache, wire ++ (encodeAll o.value ++ (errorReply e).encode)⟩ := by
  induction reads generalizing f buffer cache o wire with
  | nil =>
      rw [List.flatten_nil, List.append_nil, parseAll_of_incomplete hbuffer] at herror
      cases herror
  | cons data reads ih =>
      rw [List.flatten_cons, ← List.append_assoc] at herror ho
      cases hfront : (parseAll (buffer ++ data)).error with
      | some e' =>
          rw [parseAll_append_of_error hfront] at herror ho
          cases herror
          have hread := receive_of_error hf hfront ho wire
          exact ⟨[data], reads, rfl, receiveAll_cons_of_ok hread []⟩
      | none =>
          rw [parseAll_append_of_idle hfront] at herror ho
          obtain ⟨o₁, o₂, ho₁, ho₂, rfl⟩ := answerAll_append_eq_ok_iff.mp ho
          obtain ⟨f', hread, hf'⟩ := receive_of_idle hf hfront ho₁ wire
          obtain ⟨before, after, rfl, hreads⟩ :=
            ih hf' (parse_rest_of_idle hfront) herror ho₂ (wire ++ encodeAll o₁.value)
          refine ⟨data :: before, after, rfl, ?_⟩
          rw [receiveAll_cons_of_ok hread, hreads, encodeAll_append]
          simp only [List.append_assoc]

end Reads

/-- However the bytes are cut into reads: without an error, the answers to the values that all of
the bytes hold are written back, and the buffer keeps the rest; the first error is answered right
behind the values in front of it. -/
theorem receiveAll_start {cache : ByteCache} (hcache : cache.Reachable) (reads : List Bytes) :
    ∃ o, answerAll cache (parseAll reads.flatten).values = .ok o ∧
      match (parseAll reads.flatten).error with
      | none =>
        ∃ framer, (start cache).receiveAll reads =
          .ok ⟨⟨framer, (parseAll reads.flatten).rest⟩, o.cache, encodeAll o.value⟩
      | some e =>
        ∃ before after final, reads = before ++ after ∧
          (start cache).receiveAll before =
            .ok ⟨{}, o.cache,
              encodeAll o.value ++ (Value.error ("ERR " ++ e.message)).encode⟩ ∧
          (start cache).receiveAll reads = .ok final ∧
          encodeAll o.value ++ (Value.error ("ERR " ++ e.message)).encode <+: final.wire := by
  obtain ⟨o, ho, hsound⟩ := exists_answerAll hcache.sound (parseAll reads.flatten).values
  have hbuffer : parse [] = .incomplete := by
    simp [parse, readValue]
  refine ⟨o, ho, ?_⟩
  cases hparsed : (parseAll reads.flatten).error with
  | none => exact receiveAll_of_idle (Framer.at_start []) hbuffer hparsed ho []
  | some e =>
      obtain ⟨before, after, rfl, hbefore⟩ :=
        receiveAll_of_error (Framer.at_start []) hbuffer hparsed ho []
      let mid : Session := ⟨{}, o.cache, encodeAll o.value ++ (errorReply e).encode⟩
      have hmid : mid.cache.Sound := hsound
      obtain ⟨final, hfinal, hwire⟩ := exists_receiveAll hmid after
      refine ⟨before, after, final, rfl, hbefore, ?_, hwire⟩
      exact (receiveAll_append_of_ok hbefore after).trans hfinal

/-- A command cut inside its name, a byte that no frame begins with, and one more frame. What is
written back reads `+PONG` and `-ERR Protocol error: unknown type byte '!'`. -/
theorem receiveAll_start_cut_ping :
    let cache : ByteCache := ⟨∅, .empty, 2⟩
    let reads : List Bytes := [[42, 49, 13, 10, 36, 52, 13, 10, 80, 73], [78, 71, 13, 10, 33],
      [43, 108, 13, 10]]
    let wire : Bytes := [43, 80, 79, 78, 71, 13, 10,
      45, 69, 82, 82, 32, 80, 114, 111, 116, 111, 99, 111, 108, 32, 101, 114, 114, 111, 114, 58, 32,
      117, 110, 107, 110, 111, 119, 110, 32, 116, 121, 112, 101, 32, 98, 121, 116, 101, 32,
      39, 33, 39, 13, 10]
    cache.Reachable ∧
      ∃ before after final, reads = before ++ after ∧
        (start cache).receiveAll before = .ok ⟨{}, cache, wire⟩ ∧
        (start cache).receiveAll reads = .ok final ∧ wire <+: final.wire := by
  intro cache reads wire
  let ping : Value := .array [.bulk [80, 73, 78, 71]]
  have hmade : Cache.ofCapacity 2 = .ok ⟨(), cache, [.created 2]⟩ := rfl
  have hping : parse reads.flatten = .complete ping [33, 43, 108, 13, 10] := rfl
  have hrest : parse [33, 43, 108, 13, 10] = .malformed (.unknownType 33) := rfl
  have hparsed : parseAll reads.flatten =
      ⟨[ping], [33, 43, 108, 13, 10], some (.unknownType 33)⟩ := by
    rw [parseAll_of_complete hping, parseAll_of_malformed hrest]
  have hanswer : answerAll cache [ping] = .ok ⟨[.simple "PONG"], cache, []⟩ := rfl
  have hwire : encodeAll [.simple "PONG"] ++
      (Value.error ("ERR " ++ ProtocolError.message (.unknownType 33))).encode = wire := by
    decide +kernel
  have hcache : cache.Reachable := .made hmade
  obtain ⟨o, ho, hreads⟩ := receiveAll_start hcache reads
  rw [hparsed] at ho hreads
  cases hanswer.symm.trans ho
  rw [← hwire]
  exact ⟨hcache, hreads⟩

end Session

end RespCache
