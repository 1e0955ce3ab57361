import RespCache.Proofs.Connection.Session

/-!
A connection as the loop that serves it: every command is answered as soon as it is taken off the
buffer, its reply waits in a second buffer, and this buffer is sent and emptied at the end of the
read. That is the same as taking everything off first and answering it then (`serve_eq`,
`receive_eq`). Between two reads nothing is left to be sent, and the bytes that are left ask for more;
after an error nothing is left of the connection at all (`idle_receive_of_run`).
-/

namespace RespCache

open Resp Command

/-- A connection with its two buffers, the cache that it shares with others, and what it has sent and
reported. -/
structure Exchange where
  connection : Connection
  cache : ByteCache
  /-- the replies that are not sent yet -/
  unsent : Bytes
  sent : Bytes
  log : List Event

/-- What comes to pass on a connection: bytes are read, or the other clients leave a cache behind. -/
inductive Happening where
  | read (data : Bytes)
  | others (cache : ByteCache)

namespace Exchange

def start (cache : ByteCache) : Exchange := ⟨{}, cache, [], [], []⟩

/-- Answers every command that is whole, each one when it is taken off, and an error behind them. -/
def serve (x : Exchange) : Except Cache.Fault (Option ProtocolError × Exchange) :=
  match _h : x.connection.framer.next x.connection.buffer with
  | (framer, .complete command rest) =>
    match answer x.cache command with
    | .error fault => .error fault
    | .ok o =>
      serve ⟨⟨framer, rest⟩, o.cache, x.unsent ++ o.value.encode, x.sent,
        x.log ++ o.events.map .cache⟩
  | (framer, .incomplete) => .ok (none, { x with connection := ⟨framer, x.connection.buffer⟩ })
  | (framer, .malformed e) =>
    .ok (some e, ⟨⟨framer, []⟩, x.cache, x.unsent ++ (errorReply e).encode, x.sent,
      x.log ++ [.malformed e]⟩)
termination_by x.connection.buffer.length
decreasing_by
  exact x.connection.framer.next_shortens x.connection.buffer command rest (by rw [_h])

def flush (x : Exchange) : Exchange :=
  if x.unsent.isEmpty then x else { x with unsent := [], sent := x.sent ++ x.unsent }

/-- Works off one read; tells the error that it ends with. -/
def receive (x : Exchange) (data : Bytes) : Except Cache.Fault (Option ProtocolError × Exchange) :=
  match serve { x with
    connection := ⟨x.connection.framer, x.connection.buffer ++ data⟩ } with
  | .error fault => .error fault
  | .ok (error, x) => .ok (error, x.flush)

def run (x : Exchange) : List Happening → Except Cache.Fault Exchange
  | [] => .ok x
  | .read data :: later =>
    match x.receive data with
    | .error fault => .error fault
    | .ok (_, x) => x.run later
  | .others cache :: later => run { x with cache } later

/-- The exchange after a read that leads to this turn. -/
def answered (x : Exchange) (turn : Turn) : Exchange :=
  ⟨turn.connection, turn.cache, [], x.sent ++ (x.unsent ++ turn.wire), x.log ++ turn.events⟩

/-- The exchange as it goes on behind what another one has sent and reported. -/
def behind (x before : Exchange) : Exchange :=
  { x with sent := before.sent ++ x.sent, log := before.log ++ x.log }

/-! ### The loop and the batch -/

theorem serve_eq (x : Exchange) :
    x.serve =
      let batch := x.connection.framer.drain x.connection.buffer
      (answerAll x.cache batch.commands).map fun o =>
        (batch.error, ⟨.ofBatch batch, o.cache,
          x.unsent ++ encodeAll (o.value ++ (batch.error.map errorReply).toList), x.sent,
          x.log ++ (o.events.map .cache ++ (batch.error.map .malformed).toList)⟩) := by
  fun_induction serve x with
  | case1 x framer command rest hnext fault hfault =>
      simp only [Framer.drain_of_complete hnext, answerAll_cons, hfault]
      rfl
  | case2 x framer command rest hnext o ho ih =>
      simp only [Framer.drain_of_complete hnext, answerAll_cons, ho, ih]
      cases answerAll o.cache (framer.drain rest).commands with
      | error fault => rfl
      | ok os => simp [Except.map, Connection.ofBatch]
  | case3 x framer hnext =>
      simp [Framer.drain, Framer.drainFrom_of_incomplete hnext, answerAll_nil, Except.map,
        Connection.ofBatch]
  | case4 x framer e hnext =>
      simp [Framer.drain, Framer.drainFrom_of_malformed hnext, answerAll_nil, Except.map,
        Connection.ofBatch]

theorem flush_eq (x : Exchange) :
    x.flush = { x with unsent := [], sent := x.sent ++ x.unsent } := by
  rw [flush]
  split
  case isTrue h =>
    have hunsent : x.unsent = [] := List.isEmpty_iff.mp h
    cases x
    simp_all
  case isFalse => rfl

/-- A read sends what the connection's turn says, and nothing is left to be sent. -/
theorem receive_eq (x : Exchange) (data : Bytes) :
    x.receive data = (x.connection.receive x.cache data).map fun turn =>
      ((x.connection.framer.drain (x.connection.buffer ++ data)).error, x.answered turn) := by
  rw [receive, serve_eq, Connection.receive]
  dsimp only
  cases answerAll x.cache (x.connection.framer.drain (x.connection.buffer ++ data)).commands with
  | error fault => rfl
  | ok o => simp [Except.map, flush_eq, answered, Turn.wire]

theorem receive_eq_ok_iff {x next : Exchange} {data : Bytes} {error : Option ProtocolError} :
    x.receive data = .ok (error, next) ↔
      ∃ turn, x.connection.receive x.cache data = .ok turn ∧
        error = (x.connection.framer.drain (x.connection.buffer ++ data)).error ∧
        next = x.answered turn := by
  rw [receive_eq]
  cases x.connection.receive x.cache data with
  | error fault => simp [Except.map]
  | ok turn => simp [Except.map, eq_comm]

/-! ### What was there before -/

theorem run_behind (x before : Exchange) (later : List Happening) :
    (x.behind before).run later = (x.run later).map (·.behind before) := by
  induction later generalizing x with
  | nil => rfl
  | cons h later ih =>
      cases h with
      | others cache => exact ih { x with cache }
      | read data =>
          rw [run, run, receive_eq, receive_eq, behind]
          cases x.connection.receive x.cache data with
          | error fault => rfl
          | ok turn =>
              have hturn : (x.behind before).answered turn = (x.answered turn).behind before := by
                simp [behind, answered]
              exact (congrArg (run · later) hturn).trans (ih (x.answered turn))

/-- Nothing but the cache, and what was sent and reported, tells an exchange from a new one. -/
theorem run_of_new {x : Exchange} (hconnection : x.connection = {}) (hunsent : x.unsent = [])
    (later : List Happening) : x.run later = ((start x.cache).run later).map (·.behind x) := by
  have hx : x = (start x.cache).behind x := by
    cases x
    simp_all [behind, start]
  rw [← run_behind, ← hx]

/-! ### Between two reads -/

/-- There is nothing to send, the framer stands at the buffer, and the buffer asks for more. -/
structure Idle (x : Exchange) : Prop where
  unsent : x.unsent = []
  framer : x.connection.framer.At x.connection.buffer
  waiting : parse x.connection.buffer = .incomplete

theorem idle_start (cache : ByteCache) : (start cache).Idle :=
  ⟨rfl, Framer.at_start [], by simp [start, parse, readValue]⟩

namespace Idle

variable {x next : Exchange}

/-- A read leaves the exchange idle; after an error its connection is a new one. -/
theorem receive (hx : x.Idle) {data : Bytes} {error : Option ProtocolError}
    (h : x.receive data = .ok (error, next)) :
    next.Idle ∧ error = (parseAll (x.connection.buffer ++ data)).error ∧
      (error.isSome → next.connection = {}) := by
  obtain ⟨turn, hturn, herror, rfl⟩ := receive_eq_ok_iff.mp h
  have hat : x.connection.framer.At (x.connection.buffer ++ data) := hx.framer.append data
  have hconnection : (x.answered turn).connection =
      .ofBatch (x.connection.framer.drain (x.connection.buffer ++ data)) :=
    Connection.connection_of_receive hturn
  have hparsed : error = (parseAll (x.connection.buffer ++ data)).error := by
    obtain ⟨framer, hdrain, -⟩ := hat.drain_eq
    rw [herror, hdrain]
  refine ⟨?_, hparsed, fun hsome => ?_⟩
  · constructor
    case unsent => rfl
    case framer =>
      rw [hconnection]
      exact Connection.at_ofBatch_drain hat
    case waiting =>
      rw [hconnection]
      cases hwrong : (parseAll (x.connection.buffer ++ data)).error with
      | none =>
          obtain ⟨framer, hbatch, -⟩ := Connection.ofBatch_drain_of_idle hat hwrong
          rw [hbatch]
          exact parse_rest_of_idle hwrong
      | some e =>
          rw [Connection.ofBatch_drain_of_error hat hwrong]
          exact (idle_start x.cache).waiting
  · obtain ⟨e, rfl⟩ := Option.isSome_iff_exists.mp hsome
    rw [hconnection, Connection.ofBatch_drain_of_error hat hparsed.symm]

theorem run (hx : x.Idle) {happenings : List Happening} (h : x.run happenings = .ok next) :
    next.Idle := by
  induction happenings generalizing x with
  | nil =>
      cases h
      exact hx
  | cons happening later ih =>
      cases happening with
      | others cache => exact @ih { x with cache } ⟨hx.unsent, hx.framer, hx.waiting⟩ h
      | read data =>
          rw [Exchange.run] at h
          cases hread : x.receive data with
          | error fault =>
              rw [hread] at h
              cases h
          | ok mid =>
              rw [hread] at h
              exact ih (hx.receive hread).1 h

end Idle

/-! ### Sound caches -/

theorem exists_receive {x : Exchange} (hx : x.cache.Sound) (data : Bytes) :
    ∃ error next, x.receive data = .ok (error, next) ∧ next.cache.Sound := by
  obtain ⟨turn, hturn, hsound⟩ := Connection.exists_turn hx x.connection data
  rw [receive_eq, hturn]
  exact ⟨_, _, rfl, hsound⟩

theorem exists_run {x : Exchange} (hx : x.cache.Sound) {happenings : List Happening}
    (hothers : ∀ c, .others c ∈ happenings → c.Sound) :
    ∃ final, x.run happenings = .ok final ∧ final.cache.Sound := by
  induction happenings generalizing x with
  | nil => exact ⟨x, rfl, hx⟩
  | cons happening later ih =>
      have hlater : ∀ c, .others c ∈ later → c.Sound := fun c hc =>
        hothers c (List.mem_cons_of_mem _ hc)
      cases happening with
      | others cache =>
          have hcache : cache.Sound := hothers cache List.mem_cons_self
          exact @ih { x with cache } hcache hlater
      | read data =>
          obtain ⟨error, next, hnext, hsound⟩ := exists_receive hx data
          obtain ⟨final, hfinal, hsound⟩ := ih hsound hlater
          exact ⟨final, by simp only [run, hnext, hfinal], hsound⟩

/-- Whatever has been read on a connection and whatever others have done to the cache: with caches
that can come about every further read is worked off, and with any caches a read that is worked off
leaves nothing to be sent, a buffer that asks for more, and a framer inside of it. After an error the
connection is a new one, and everything later goes on as with a new connection to the same cache. -/
theorem idle_receive_of_run (cache : ByteCache) (before : List Happening) :
    (cache.Reachable → (∀ c, .others c ∈ before → c.Reachable) →
      ∃ x, (start cache).run before = .ok x ∧
        ∀ data, ∃ error next, x.receive data = .ok (error, next)) ∧
    ∀ x data error next, (start cache).run before = .ok x → x.receive data = .ok (error, next) →
      (∃ turn, x.connection.receive x.cache data = .ok turn ∧ next = x.answered turn) ∧
      next.unsent = [] ∧ parse next.connection.buffer = .incomplete ∧
      next.connection.framer.scanned ≤ next.connection.buffer.length ∧
      error = (parseAll (x.connection.buffer ++ data)).error ∧
      (error.isSome → next.connection = {} ∧
        ∀ later, next.run later = ((start next.cache).run later).map (·.behind next)) := by
  constructor
  · intro hcache hothers
    have hstart : (start cache).cache.Sound := hcache.sound
    obtain ⟨x, hx, hsound⟩ := exists_run hstart fun c hc => (hothers c hc).sound
    refine ⟨x, hx, fun data => ?_⟩
    obtain ⟨error, next, hnext, -⟩ := exists_receive hsound data
    exact ⟨error, next, hnext⟩
  · intro x data error next hx hread
    obtain ⟨turn, hturn, -, hnext⟩ := receive_eq_ok_iff.mp hread
    obtain ⟨hidle, herror, hnew⟩ := ((idle_start cache).run hx).receive hread
    exact ⟨⟨turn, hturn, hnext⟩, hidle.unsent, hidle.waiting, hidle.framer.scanned_le, herror,
      fun hsome => ⟨hnew hsome, run_of_new (hnew hsome) hidle.unsent⟩⟩

/-- A command cut inside its name, and a byte behind it that no frame begins with. -/
theorem idle_receive_of_run_cut_ping :
    let cache : ByteCache := ⟨∅, .empty, 2⟩
    let front : Bytes := [42, 49, 13, 10, 36, 52, 13, 10, 80, 73]
    cache.Reachable ∧ ∃ x next, (start cache).run [.others cache, .read front] = .ok x ∧
      x.connection.buffer = front ∧
      x.receive [78, 71, 13, 10, 33] = .ok (some (.unknownType 33), next) ∧
      next.unsent = [] ∧ next.connection = {} ∧
      ∀ later, next.run later = ((start next.cache).run later).map (·.behind next) := by
  intro cache front
  let data : Bytes := [78, 71, 13, 10, 33]
  let ping : Value := .array [.bulk [80, 73, 78, 71]]
  have hmade : Cache.ofCapacity 2 = .ok ⟨(), cache, [.created 2]⟩ := rfl
  have hcache : cache.Reachable := .made hmade
  have hothers : ∀ c, Happening.others c ∈ [.others cache, .read front] → c.Reachable := by
    intro c hc
    obtain rfl : c = cache := by simpa using hc
    exact hcache
  have hfront : parse front = .incomplete := rfl
  have hping : parse (front ++ data) = .complete ping [33] := rfl
  have hrest : parse [33] = .malformed (.unknownType 33) := rfl
  obtain ⟨hworked, hidle⟩ := idle_receive_of_run cache [.others cache, .read front]
  obtain ⟨x, hx, hreceive⟩ := hworked hcache hothers
  obtain ⟨error, next, hnext⟩ := hreceive data
  obtain ⟨-, hunsent, -, -, herror, hnew⟩ := hidle x data error next hx hnext
  have hbuffer : x.connection.buffer = front := by
    have hparsed : parseAll ([] ++ front) = ⟨[], front, none⟩ := parseAll_of_incomplete hfront
    have hanswer : answerAll cache (parseAll ([] ++ front)).values = .ok ⟨[], cache, []⟩ := by
      rw [hparsed, answerAll_nil]
    obtain ⟨events, hturn⟩ :=
      @Connection.receive_eq {} cache front _ (Framer.at_start []) hanswer
    obtain ⟨framer, hbatch, -⟩ :=
      Connection.ofBatch_drain_of_idle (Framer.at_start ([] ++ front)) (by rw [hparsed])
    simp only [run, receive_eq, start, hturn, hbatch, Except.map] at hx
    cases hx
    simp only [answered, hparsed]
  rw [hbuffer, parseAll_of_complete hping, parseAll_of_malformed hrest] at herror
  cases herror
  obtain ⟨hconnection, hlater⟩ := hnew rfl
  exact ⟨hcache, x, next, hx, hbuffer, hnext, hunsent, hconnection, hlater⟩

end Exchange

end RespCache
