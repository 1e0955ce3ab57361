import RespCache.Proofs.Connection.Session
import RespCache.Proofs.Server.Log
import RespCache.Server

/-!
Clients side by side. Whatever the order in which their reads come, the commands that are carried
out for a client are those in the client's own bytes, and replies and cache are those of answering
the log on one cache (`receiveAll_eq_answerInputs`). Between two reads the buffer of every connection
holds the bytes that were kept for it, and no value in them is whole (`Stands`); a read changes this
for its own client only.
-/

namespace RespCache

open Resp Command

/-- What a read leads to: the commands that are carried out, and what is written back. -/
structure Handled where
  client : Nat
  commands : List Value
  replies : List Value

/-- The commands, each with the client it is carried out for. -/
def Handled.executed (m : Handled) : List (Nat × Value) := m.commands.map (m.client, ·)

/-- The commands of each read are carried out on the cache that the reads before it leave, and what
they are answered is written back. -/
inductive Executes : ByteCache → List Handled → ByteCache → Prop where
  | nil (c : ByteCache) : Executes c [] c
  | cons {c final : ByteCache} {m : Handled} {handled : List Handled}
      {o : Cache.Outcome Bytes Bytes (List Value)} :
      answerAll c m.commands = .ok o → o.value <+: m.replies → Executes o.cache handled final →
        Executes c (m :: handled) final

namespace Server

def connection (s : Server) (client : Nat) : Connection := s.connections.getD client {}

def receiveAll (s : Server) : List Read → Except Cache.Fault (List Handled × Server)
  | [] => .ok ([], s)
  | r :: reads =>
    match s.receive r.client r.data with
    | .error fault => .error fault
    | .ok (turn, next) =>
      match next.receiveAll reads with
      | .error fault => .error fault
      | .ok (handled, final) => .ok (⟨r.client, turn.commands, turn.replies⟩ :: handled, final)

end Server

/-! ### One read -/

/-- Between two reads: the framer stands at the buffer, and the buffer holds the bytes in `kept`, in
which no value is whole. -/
structure Connection.Stands (k : Connection) (kept : List Stamped) : Prop where
  framer : k.framer.At k.buffer
  buffer : k.buffer = bytesOf kept
  waiting : parse (bytesOf kept) = .incomplete

namespace Connection

theorem stands_new : Stands {} [] := ⟨Framer.at_start [], rfl, rfl⟩

theorem buffer_ofBatch_drain {f : Framer} {buffer : Bytes} (hf : f.At buffer) :
    (ofBatch (f.drain buffer)).buffer = (parseAll buffer).kept := by
  cases herror : (parseAll buffer).error with
  | none =>
      obtain ⟨framer, hbatch, -⟩ := ofBatch_drain_of_idle hf herror
      simp only [hbatch, Parsed.kept, herror]
  | some e => simp only [ofBatch_drain_of_error hf herror, Parsed.kept, herror]

/-- A read answers what it makes whole, and what stays in the buffer is kept. -/
theorem Stands.receive {k : Connection} {kept : List Stamped} (hk : k.Stands kept)
    {cache : ByteCache} (hcache : cache.Sound) (data : List Stamped) :
    let parsed := parseAll (bytesOf (kept ++ data))
    ∃ turn, k.receive cache (bytesOf data) = .ok turn ∧
      turn.commands = parsed.values ∧
      answerInputs cache (parsed.values.map .command ++ (parsed.error.map .malformed).toList) =
        .ok (turn.replies, turn.cache) ∧
      turn.cache.Sound ∧ ∀ rest, bytesOf rest = parsed.kept → turn.connection.Stands rest := by
  intro parsed
  have hbytes : k.buffer ++ bytesOf data = bytesOf (kept ++ data) := by
    rw [bytesOf_append, hk.buffer]
  have hframer : k.framer.At (bytesOf (kept ++ data)) := hbytes ▸ hk.framer.append (bytesOf data)
  obtain ⟨o, ho, hsound⟩ := exists_answerAll hcache parsed.values
  have hvalues : answerAll cache (parseAll (k.buffer ++ bytesOf data)).values = .ok o := hbytes ▸ ho
  obtain ⟨events, hturn⟩ := receive_eq hk.framer hvalues
  rw [hbytes] at hturn
  refine ⟨_, hturn, rfl, answerInputs_of_answerAll ho parsed.error, hsound, fun rest hrest => ?_⟩
  constructor
  case framer => exact at_ofBatch_drain hframer
  case buffer => rw [buffer_ofBatch_drain hframer, hrest]
  case waiting =>
    rw [hrest]
    exact parse_kept _

end Connection

namespace Server

/-- All connections stand at the bytes that are kept for their clients. -/
def Stands (s : Server) (kept : Nat → List Stamped) : Prop :=
  ∀ client, (s.connection client).Stands (kept client)

theorem stands_start (cache : ByteCache) (clients : Nat) :
    Stands ⟨cache, Array.replicate clients {}⟩ fun _ => [] := by
  intro client
  have hnew : connection ⟨cache, Array.replicate clients {}⟩ client = {} := by
    rw [connection, Array.getD_eq_getD_getElem?, Array.getElem?_replicate]
    split <;> rfl
  rw [hnew]
  exact Connection.stands_new

section OneRead

variable {s : Server} {kept : Nat → List Stamped} {client : Nat} {r : Read} {turn : Turn}

theorem connection_set (hclient : client < s.connections.size) (cache : ByteCache) (k : Connection)
    (other : Nat) : connection ⟨cache, s.connections.setIfInBounds client k⟩ other =
      if other = client then k else s.connection other := by
  simp only [connection, Array.getD_eq_getD_getElem?, Array.getElem?_setIfInBounds]
  by_cases hother : other = client
  · subst hother
    simp [hclient]
  · rw [if_neg (Ne.symm hother), if_neg hother]

/-- The connections of the other clients stay as they are. -/
theorem Stands.set (hs : s.Stands kept) (hclient : client < s.connections.size) (cache : ByteCache)
    {k : Connection} {rest : List Stamped} (hk : k.Stands rest) :
    Stands ⟨cache, s.connections.setIfInBounds client k⟩ (Function.update kept client rest) := by
  intro other
  rw [connection_set hclient, Function.update_apply]
  split
  · exact hk
  · exact hs other

theorem receive_of_turn {data : Bytes}
    (h : (s.connection client).receive s.cache data = .ok turn) :
    s.receive client data =
      .ok (turn, ⟨turn.cache, s.connections.setIfInBounds client turn.connection⟩) := by
  rw [receive, ← connection, h]

theorem turn_of_receive {data : Bytes} {next : Server}
    (h : s.receive client data = .ok (turn, next)) :
    (s.connection client).receive s.cache data = .ok turn ∧ next.cache = turn.cache := by
  rw [receive, ← connection] at h
  split at h
  case h_1 => cases h
  case h_2 hturn =>
    cases h
    exact ⟨hturn, rfl⟩

end OneRead

/-! ### All reads -/

section AllReads

variable {s : Server} {kept : Nat → List Stamped}

theorem receiveAll_cons_of_ok {r : Read} {reads : List Read} {turn : Turn} {next final : Server}
    {handled : List Handled} (hread : s.receive r.client r.data = .ok (turn, next))
    (hreads : next.receiveAll reads = .ok (handled, final)) :
    s.receiveAll (r :: reads) =
      .ok (⟨r.client, turn.commands, turn.replies⟩ :: handled, final) := by
  rw [receiveAll, hread]
  simp only [hreads]

/-- Every run carries out the commands that it tells of. -/
theorem executes_of_receiveAll {reads : List Read} {final : Server} {handled : List Handled}
    (h : s.receiveAll reads = .ok (handled, final)) : Executes s.cache handled final.cache := by
  induction reads generalizing s handled with
  | nil =>
      cases h
      exact .nil _
  | cons r reads ih =>
      unfold receiveAll at h
      split at h
      case h_1 => cases h
      case h_2 turn next hread =>
        split at h
        case h_1 => cases h
        case h_2 handled' final' hreads =>
          cases h
          obtain ⟨hturn, hcache⟩ := turn_of_receive hread
          obtain ⟨o, ho, hleft, hanswers⟩ := Connection.exists_answerAll_of_receive hturn
          have hlater : Executes next.cache handled' final.cache := ih hreads
          rw [hcache, hleft] at hlater
          exact .cons ho hanswers hlater

/-- By induction on the reads: the log begins with what the first read brings, and the others are
worked off with the bytes that are kept after it. -/
theorem Stands.receiveAll (hs : s.Stands kept) (hcache : s.cache.Sound) {reads : List Read}
    (hreads : ∀ r ∈ reads, r.client < s.connections.size) (time : Nat) :
    ∃ handled final log replies, s.receiveAll reads = .ok (handled, final) ∧
      Merges log kept time reads ∧
      handled.flatMap Handled.executed = log.filterMap Arrival.command? ∧
      answerInputs s.cache (log.map Arrival.input) = .ok (replies, final.cache) ∧
      handled.map Handled.replies = repliesByRead (log.zip replies) time reads := by
  induction reads generalizing s kept time with
  | nil =>
      have hmerges : Merges [] kept time [] := merges_nil fun client => (hs client).waiting
      exact ⟨[], s, [], [], rfl, hmerges, rfl, rfl, rfl⟩
  | cons r reads ih =>
      rw [List.forall_mem_cons] at hreads
      obtain ⟨hclient, hreads⟩ := hreads
      let data : List Stamped := r.data.zipIdx time
      have hdata : bytesOf data = r.data := bytesOf_zipIdx r.data time
      let front := arrivals r.client (kept r.client ++ data)
      obtain ⟨turn, hturn, hcommands, hanswer, hsound, hstands⟩ :=
        (hs r.client).receive hcache data
      rw [hdata] at hturn
      rw [← map_input_arrivals r.client] at hanswer
      obtain ⟨rest, hrest, hstretches⟩ :=
        exists_flatMap_stretches_cons r.client (kept r.client) data
      let next : Server := ⟨turn.cache, s.connections.setIfInBounds r.client turn.connection⟩
      have hnext : next.Stands (Function.update kept r.client rest) :=
        hs.set hclient turn.cache (hstands rest hrest)
      have hsize : next.connections.size = s.connections.size := Array.size_setIfInBounds
      obtain ⟨handled, final, log, replies, hrun, hmerges, hexecuted, hanswers, hwritten⟩ :=
        ih hnext hsound (hsize.symm ▸ hreads) (time + r.data.length)
      refine ⟨_, final, front ++ log, turn.replies ++ replies,
        receiveAll_cons_of_ok (receive_of_turn hturn) hrun,
        hmerges.cons (hs r.client).waiting hstretches, ?_, ?_, ?_⟩
      · rw [List.flatMap_cons, List.filterMap_append, filterMap_command?_arrivals, hexecuted,
          Handled.executed, hcommands]
      · rw [List.map_append]
        exact answerInputs_append hanswer hanswers
      · have hlength : turn.replies.length = front.length := by
          rw [length_of_answerInputs hanswer, List.length_map]
        have hplace : ∀ a ∈ front, time ≤ a.time ∧ a.time < time + r.data.length := by
          intro a ha
          exact time_of_mem_arrivals (hs r.client).waiting ha
        rw [List.map_cons, hwritten, repliesByRead_cons hlength hplace hmerges.after]

end AllReads

/-- Whatever the order in which the clients' reads come, the commands carried out for a client are
the values in the client's own bytes, in order. The log puts what all of the clients' bytes bring in
the order in which it arrives; the commands are carried out in this order, and the replies and the
cache are those of answering the log on one cache. -/
theorem receiveAll_eq_answerInputs {cache : ByteCache} (hcache : cache.Reachable) {clients : Nat}
    {reads : List Read} (hreads : ∀ r ∈ reads, r.client < clients) :
    ∃ handled final log replies,
      receiveAll ⟨cache, Array.replicate clients {}⟩ reads = .ok (handled, final) ∧
      Executes cache handled final.cache ∧
      (∀ client, ((handled.flatMap Handled.executed).filter (·.1 = client)).map Prod.snd =
        (stretches [] (readsOf client 0 reads)).flatMap fun s => (parseAll (bytesOf s)).values) ∧
      Merges log (fun _ => []) 0 reads ∧
      handled.flatMap Handled.executed = log.filterMap Arrival.command? ∧
      answerInputs cache (log.map Arrival.input) = .ok (replies, final.cache) ∧
      handled.map Handled.replies = repliesByRead (log.zip replies) 0 reads := by
  have hclients : ∀ r ∈ reads, r.client < (Array.replicate clients ({} : Connection)).size := by
    simpa using hreads
  obtain ⟨handled, final, log, replies, hrun, hmerges, hexecuted, hanswers, hwritten⟩ :=
    (stands_start cache clients).receiveAll hcache.sound hclients 0
  refine ⟨handled, final, log, replies, hrun, executes_of_receiveAll hrun, fun client => ?_,
    hmerges, hexecuted, hanswers, hwritten⟩
  rw [hexecuted]
  exact hmerges.commands_eq client

/-- A `GET` that is cut in two, and a `SET` of the other client between its parts, with a byte behind
it that no frame begins with. -/
theorem receiveAll_eq_answerInputs_cut_get :
    let cache : ByteCache := ⟨∅, .empty, 1⟩
    let get : Value := .array [.bulk [71, 69, 84], .bulk [97]]
    let set : Value := .array [.bulk [83, 69, 84], .bulk [97], .bulk [49]]
    let reads : List Read := [
      ⟨0, [42, 50, 13, 10, 36, 51, 13, 10, 71, 69, 84, 13, 10, 36, 49, 13, 10]⟩,
      ⟨1, [42, 51, 13, 10, 36, 51, 13, 10, 83, 69, 84, 13, 10, 36, 49, 13, 10, 97, 13, 10, 36, 49,
        13, 10, 49, 13, 10, 33]⟩,
      ⟨0, [97, 13, 10]⟩]
    cache.Reachable ∧ (∀ r ∈ reads, r.client < 2) ∧
      ∃ handled final, receiveAll ⟨cache, Array.replicate 2 {}⟩ reads = .ok (handled, final) ∧
        handled.flatMap Handled.executed = [(1, set), (0, get)] ∧
        handled.map Handled.replies = [[],
          [.simple "OK", .error "ERR Protocol error: unknown type byte '!'"], [.bulk [49]]] ∧
        Executes cache handled final.cache := by
  intro cache get set reads
  have hmade : Cache.ofCapacity 1 = .ok ⟨(), cache, [.created 1]⟩ := rfl
  have hcache : cache.Reachable := .made hmade
  have hreads : ∀ r ∈ reads, r.client < 2 := by decide
  let get₀ : List Stamped :=
    [42, 50, 13, 10, 36, 51, 13, 10, 71, 69, 84, 13, 10, 36, 49, 13, 10].zipIdx 0
  let get₁ : List Stamped := [97, 13, 10].zipIdx 45
  let set₁ : List Stamped := [42, 51, 13, 10, 36, 51, 13, 10, 83, 69, 84, 13, 10, 36, 49, 13, 10, 97,
    13, 10, 36, 49, 13, 10, 49, 13, 10, 33].zipIdx 17
  let log : List Arrival := [⟨1, 43, .command set⟩, ⟨1, 44, .malformed (.unknownType 33)⟩,
    ⟨0, 47, .command get⟩]
  have hfront : parse (bytesOf ([] ++ get₀)) = .incomplete := rfl
  have hget : parse (bytesOf ([] ++ get₀ ++ get₁)) = .complete get [] := rfl
  have hset : parse (bytesOf ([] ++ set₁)) = .complete set [33] := rfl
  have hgetRequest : Request.ofValue get = .ok (.get [97]) := rfl
  have hsetRequest : Request.ofValue set = .ok (.set [97] [49]) := rfl
  have hwrong : parse [33] = .malformed (.unknownType 33) := rfl
  have hstretches₀ : stretches [] [get₀, get₁] = [[] ++ get₀ ++ get₁] := by
    rw [stretches_of_idle, stretches_of_idle, stretches]
    · rw [parseAll_of_complete hget, parseAll_of_incomplete rfl]
    · rw [parseAll_of_incomplete hfront]
  have hstretches₁ : stretches [] [set₁] = [[] ++ set₁, []] := by
    have herror : (parseAll (bytesOf ([] ++ set₁))).error = some (.unknownType 33) := by
      rw [parseAll_of_complete hset, parseAll_of_malformed hwrong]
    rw [stretches_of_error herror, stretches]
  have hempty (client : Nat) : arrivals client [] = [] := arrivals_of_incomplete rfl
  have hend : arrivals 1 [(33, 44)] = [⟨1, 44, .malformed (.unknownType 33)⟩] :=
    arrivals_of_malformed hwrong
  have hlog : Merges log (fun _ => []) 0 reads := by
    constructor
    case ordered => decide
    case after => exact fun _ _ => Nat.zero_le _
    case own =>
      rintro (_ | _ | client)
      · show [_] = (stretches [] [get₀, get₁]).flatMap (arrivals 0)
        rw [hstretches₀, List.flatMap_singleton, arrivals_of_complete hget]
        exact congrArg _ (hempty 0).symm
      · show [_, _] = (stretches [] [set₁]).flatMap (arrivals 1)
        rw [hstretches₁, List.flatMap_cons, List.flatMap_singleton, hempty, List.append_nil,
          arrivals_of_complete hset]
        exact congrArg _ hend.symm
      · show [] = (stretches [] []).flatMap (arrivals _)
        rw [stretches, List.flatMap_singleton, hempty]
  have hanswer : ∃ c, answerInputs cache (log.map Arrival.input) =
      .ok ([.simple "OK", .error ("ERR " ++ ProtocolError.message (.unknownType 33)),
        .bulk [49]], c) := by
    obtain ⟨o₁, ho₁, hsound, hreply₁, hplain⟩ := meets_expected hcache.sound (.set [97] [49])
    obtain ⟨o₂, ho₂, -, hreply₂, -⟩ := meets_expected hsound (.get [97])
    rw [hplain] at hreply₂
    have hanswer₁ := Input.answer_command (answer_of_request hsetRequest ho₁)
    have hanswer₂ := Input.answer_command (answer_of_request hgetRequest ho₂)
    rw [show o₁.value = .simple "OK" from hreply₁] at hanswer₁
    rw [show o₂.value = .bulk [49] from hreply₂] at hanswer₂
    exact ⟨o₂.cache, answerInputs_cons hanswer₁
      (answerInputs_cons rfl (answerInputs_cons hanswer₂ rfl))⟩
  obtain ⟨c, hanswer⟩ := hanswer
  obtain ⟨handled, final, log', replies, hrun, hexecutes, -, hmerges, hexecuted, hanswers,
    hwritten⟩ := receiveAll_eq_answerInputs hcache hreads
  cases hmerges.eq hlog
  cases hanswer.symm.trans hanswers
  have hmessage : "ERR " ++ ProtocolError.message (.unknownType 33) =
      "ERR Protocol error: unknown type byte '!'" := by decide +kernel
  rw [hmessage] at hwritten
  exact ⟨hcache, hreads, handled, final, hrun, hexecuted, hwritten, hexecutes⟩

end Server

end RespCache
