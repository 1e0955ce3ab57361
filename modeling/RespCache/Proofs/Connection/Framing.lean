import RespCache.Proofs.Command.Replies
import RespCache.Proofs.Connection.Session

/-!
What is written for one read, read back. The bytes hold one frame for each command and one for the
error, as long as no command has an unknown name with a line break in it; such a name tears the
reply to it apart (`Session.Ready.parseAll_wire_eq_iff`).
-/

namespace RespCache

open Resp Command

namespace Resp.ProtocolError

theorem cr_not_mem_detail (e : ProtocolError) : '\r' ∉ e.detail.toList := by
  cases e with
  | unknownType marker =>
      show '\r' ∉ ("unknown type byte '" ++ Text.escapedByte marker ++ "'").toList
      simp [Text.cr_not_mem_escapedByte]
  | invalidLength length =>
      show '\r' ∉ ("invalid length " ++ toString length.toInt).toList
      simp [Text.cr_not_mem_repr]
  | tooLarge kind length =>
      show '\r' ∉ (kind.name ++ " too large: " ++ toString length ++ " (max " ++
        toString kind.limit ++ ")").toList
      have hname : '\r' ∉ kind.name.toList := by
        cases kind <;> simp [Sized.name]
      simp [hname, Text.cr_not_mem_toDigits]
  | tooDeep =>
      show '\r' ∉ ("nesting deeper than " ++ toString maxDepth).toList
      simp [Text.cr_not_mem_toDigits]
  | invalidInteger =>
      show '\r' ∉ "invalid integer".toList
      simp
  | invalidUtf8 =>
      show '\r' ∉ "invalid UTF-8".toList
      simp
  | missingTerminator =>
      show '\r' ∉ "expected \\r\\n after bulk string".toList
      simp

theorem cr_not_mem_message (e : ProtocolError) : '\r' ∉ e.message.toList := by
  show '\r' ∉ ("Protocol error: " ++ e.detail).toList
  simp [e.cr_not_mem_detail]

end Resp.ProtocolError

theorem wellFormed_errorReply (e : ProtocolError) : (errorReply e).WellFormed := by
  apply wellFormed_error
  simp [e.cr_not_mem_message]

namespace Session

/-- Between two reads: the framer stands at the buffer, and the cache can be answered from. -/
structure Ready (s : Session) : Prop where
  framer : s.connection.framer.At s.connection.buffer
  cache : Fits s.cache

theorem Ready.receive {s : Session} (hs : s.Ready) (data : Bytes) :
    ∃ next, s.receive data = .ok next ∧ next.Ready := by
  obtain ⟨o, ho, hfits, -⟩ := hs.cache.answerAll fun v hv => wellFormed_of_mem_values hv
  obtain ⟨events, hturn⟩ := Connection.receive_eq hs.framer ho
  rw [Session.receive, hturn]
  exact ⟨_, rfl, Connection.at_ofBatch_drain (hs.framer.append data), hfits⟩

theorem Ready.receiveAll {s : Session} (hs : s.Ready) (reads : List Bytes) :
    ∃ final, s.receiveAll reads = .ok final ∧ final.Ready := by
  induction reads generalizing s with
  | nil => exact ⟨s, rfl, hs⟩
  | cons data reads ih =>
      obtain ⟨next, hnext, hready⟩ := hs.receive data
      obtain ⟨final, hfinal, hready⟩ := ih hready
      exact ⟨final, (receiveAll_cons_of_ok hnext reads).trans hfinal, hready⟩

/-- What the bytes at hand hold once `data` has been received. -/
def parsed (s : Session) (data : Bytes) : Parsed := parseAll (s.connection.buffer ++ data)

theorem Ready.parseAll_wire_eq_iff {s : Session} (hs : s.Ready) (data : Bytes) :
    ∃ o turn, answerAll s.cache (s.parsed data).values = .ok o ∧
      s.connection.receive s.cache data = .ok turn ∧
      o.value.length = (s.parsed data).values.length ∧
      turn.replies = o.value ++ ((s.parsed data).error.map errorReply).toList ∧
      (parseAll turn.wire = ⟨turn.replies, [], none⟩ ↔
        ∀ v ∈ (s.parsed data).values, ¬Breaking v) := by
  obtain ⟨o, ho, -, hlength, hreplies⟩ := hs.cache.answerAll fun v hv => wellFormed_of_mem_values hv
  obtain ⟨events, hturn⟩ := Connection.receive_eq hs.framer ho
  refine ⟨o, _, ho, hturn, hlength, rfl, ?_⟩
  have herror : ∀ v ∈ ((s.parsed data).error.map errorReply).toList, v.WellFormed := by
    intro v hv
    obtain ⟨e, -, rfl⟩ := Option.map_eq_some_iff.mp (Option.mem_toList.mp hv)
    exact wellFormed_errorReply e
  rw [Turn.wire, parseAll_encodeAll_eq_iff, List.forall_mem_append, hreplies]
  exact and_iff_left herror

/-- From an empty cache on: what is written for a read holds one frame for each command that the
read completes and one for the error that it ends with, and nothing else, unless one of the commands
has an unknown name with a line break in it. -/
theorem parseAll_wire_ofCapacity {capacity : Nat} (hpos : 0 < capacity)
    (hword : capacity < UInt64.size) (before : List Bytes) (data : Bytes) :
    ∃ created s o turn, Cache.ofCapacity capacity = .ok created ∧
      (start created.cache).receiveAll before = .ok s ∧
      answerAll s.cache (s.parsed data).values = .ok o ∧
      s.connection.receive s.cache data = .ok turn ∧
      o.value.length = (s.parsed data).values.length ∧
      turn.replies = o.value ++
        ((s.parsed data).error.map fun e => .error ("ERR " ++ e.message)).toList ∧
      (parseAll turn.wire = ⟨turn.replies, [], none⟩ ↔
        ∀ v ∈ (s.parsed data).values, ¬Breaking v) := by
  have hstart : (start ⟨∅, .empty, capacity⟩).Ready := ⟨Framer.at_start [], fits_empty hpos hword⟩
  obtain ⟨s, hs, hready⟩ := hstart.receiveAll before
  obtain ⟨o, turn, hread⟩ := hready.parseAll_wire_eq_iff data
  exact ⟨_, s, o, turn, if_neg (Nat.ne_of_gt hpos), hs, hread⟩

/-- A command and a byte that no frame begins with. -/
theorem parseAll_wire_ofCapacity_ping : 0 < 2 ∧ 2 < UInt64.size ∧
    ∃ turn, (start ⟨∅, .empty, 2⟩).connection.receive ⟨∅, .empty, 2⟩
        [42, 49, 13, 10, 36, 52, 13, 10, 80, 73, 78, 71, 13, 10, 33] = .ok turn ∧
      parseAll turn.wire =
        ⟨[.simple "PONG", .error "ERR Protocol error: unknown type byte '!'"], [], none⟩ := by
  let data : Bytes := [42, 49, 13, 10, 36, 52, 13, 10, 80, 73, 78, 71, 13, 10, 33]
  let cache : ByteCache := ⟨∅, .empty, 2⟩
  let ping : Value := .array [.bulk [80, 73, 78, 71]]
  have hmade : Cache.ofCapacity 2 = .ok ⟨(), cache, [.created 2]⟩ := rfl
  have hping : parse data = .complete ping [33] := rfl
  have hrest : parse [33] = .malformed (.unknownType 33) := rfl
  have hparsed : (start cache).parsed data = ⟨[ping], [33], some (.unknownType 33)⟩ := by
    rw [parsed, start, List.nil_append, parseAll_of_complete hping, parseAll_of_malformed hrest]
  have hanswer : answerAll cache [ping] = .ok ⟨[.simple "PONG"], cache, []⟩ := rfl
  have hknown : Request.ofValue ping = .ok .ping := rfl
  refine ⟨by decide, by decide, ?_⟩
  obtain ⟨created, s, o, turn, hcreated, hs, ho, hturn, -, hreplies, hwire⟩ :=
    @parseAll_wire_ofCapacity 2 (by decide) (by decide) [] data
  cases hmade.symm.trans hcreated
  cases hs
  rw [hparsed] at ho hreplies hwire
  cases hanswer.symm.trans ho
  rw [hreplies] at hwire
  refine ⟨turn, hturn, hwire.mpr ?_⟩
  rintro v hv ⟨name, hname, -⟩
  cases List.mem_singleton.mp hv
  cases hknown.symm.trans hname

/-- The name of an unknown command that ends one reply and begins another one. -/
theorem parseAll_wire_torn :
    ∃ created turn, Cache.ofCapacity 2 = .ok created ∧
      (start created.cache).connection.receive created.cache
        [42, 49, 13, 10, 36, 54, 13, 10, 88, 13, 10, 43, 79, 75, 13, 10] = .ok turn ∧
      turn.replies = [.error "ERR unknown command 'X\r\n+OK'"] ∧
      parseAll turn.wire = ⟨[.error "ERR unknown command 'X", .simple "OK'"], [], none⟩ := by
  have hanswer (cache : ByteCache) : answerAll cache [.array [.bulk [88, 13, 10, 43, 79, 75]]] =
      .ok ⟨[.error "ERR unknown command 'X\r\n+OK'"], cache, []⟩ := by rfl
  let data : Bytes := [42, 49, 13, 10, 36, 54, 13, 10, 88, 13, 10, 43, 79, 75, 13, 10]
  have hcommand : parse data = .complete (.array [.bulk [88, 13, 10, 43, 79, 75]]) [] := rfl
  have hparsed : parseAll data = ⟨[.array [.bulk [88, 13, 10, 43, 79, 75]]], [], none⟩ := by
    rw [parseAll_of_complete hcommand, parseAll_of_incomplete rfl]
  have hvalues (cache : ByteCache) : answerAll cache (parseAll data).values =
      .ok ⟨[.error "ERR unknown command 'X\r\n+OK'"], cache, []⟩ := by
    rw [hparsed, hanswer]
  obtain ⟨events, hturn⟩ :=
    @Connection.receive_eq {} ⟨∅, .empty, 2⟩ data _ (Framer.at_start []) (hvalues _)
  rw [List.nil_append, hparsed] at hturn
  refine ⟨_, _, rfl, hturn, rfl, ?_⟩
  -- the bytes of the one reply are those of two others
  show parseAll (encodeAll [.error "ERR unknown command 'X", .simple "OK'"]) = _
  rw [parseAll_encodeAll_eq_iff]
  intro v hv
  rcases List.mem_pair.mp hv with rfl | rfl
  · exact wellFormed_error (by simp)
  · exact wellFormed_simple (by simp)

end Session

end RespCache
