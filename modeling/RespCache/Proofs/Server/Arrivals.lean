import RespCache.Connection
import RespCache.Proofs.Resp.Stream

/-!
What a client's bytes bring, and when. Every byte carries the number of bytes that arrived before
it, at whichever connection, so commands of different clients can be compared by their last bytes.
The bytes of a client fall into stretches: each one ends with the read that brings an error, and
the next one begins with the read behind it. However a stretch comes in pieces, what it brings is
what the piece at hand brings and then what the bytes left over bring together with the pieces to
come (`exists_flatMap_stretches_cons`); and what a piece brings, arrives with the bytes of that piece
(`times_append_sublist`).
-/

namespace RespCache

open Resp

/-- A byte, and how many bytes arrived before it. -/
abbrev Stamped := UInt8 × Nat

def bytesOf (s : List Stamped) : Bytes := s.map Prod.fst

/-- When the last of the bytes arrived. -/
def lastTime (s : List Stamped) : Nat := (s.getLast?.map Prod.snd).getD 0

inductive Input where
  | command (v : Value)
  | malformed (error : ProtocolError)

/-- Something to answer, whom it comes from, and when it was there. -/
structure Arrival where
  client : Nat
  time : Nat
  input : Input

/-- The command and the client it is carried out for. -/
def Arrival.command? (a : Arrival) : Option (Nat × Value) :=
  match a.input with
  | .command v => some (a.client, v)
  | .malformed _ => none

/-- What the bytes bring: each value arrives with its last byte, and an error with the last byte of
all. -/
def arrivals (client : Nat) (s : List Stamped) : List Arrival :=
  match _h : parse (bytesOf s) with
  | .complete v rest =>
    let used := s.length - rest.length
    ⟨client, lastTime (s.take used), .command v⟩ :: arrivals client (s.drop used)
  | .incomplete => []
  | .malformed e => [⟨client, lastTime s, .malformed e⟩]
termination_by s.length
decreasing_by
  have hshort : rest.length < s.length := by
    simpa [bytesOf] using readValue_shortens maxDepth (bytesOf s) v rest _h
  rw [List.length_drop]
  omega

/-- Cuts a client's reads into stretches; `s` is what is there of the first one. -/
def stretches (s : List Stamped) : List (List Stamped) → List (List Stamped)
  | [] => [s]
  | read :: reads =>
    match (parseAll (bytesOf (s ++ read))).error with
    | none => stretches (s ++ read) reads
    | some _ => (s ++ read) :: stretches [] reads

/-! ### Stamped bytes -/

@[simp] theorem bytesOf_nil : bytesOf [] = [] := rfl

@[simp] theorem bytesOf_append (s t : List Stamped) : bytesOf (s ++ t) = bytesOf s ++ bytesOf t :=
  List.map_append

@[simp] theorem length_bytesOf (s : List Stamped) : (bytesOf s).length = s.length := List.length_map _

@[simp] theorem bytesOf_zipIdx (data : Bytes) (time : Nat) : bytesOf (data.zipIdx time) = data :=
  List.zipIdx_map_fst time data

/-- The last of some bytes at the end arrives when one of them does. -/
theorem singleton_lastTime_sublist (s : List Stamped) {t : List Stamped} (ht : t ≠ []) :
    [lastTime (s ++ t)].Sublist (t.map Prod.snd) := by
  obtain ⟨init, b, rfl⟩ := (List.eq_nil_or_concat t).resolve_left ht
  simp [lastTime]

/-! ### What bytes bring -/

section Arrivals

variable {client : Nat} {s t : List Stamped}

/-- A value at the front takes up some of the stamped bytes. -/
theorem exists_append_of_parse {v : Value} {rest : Bytes}
    (h : parse (bytesOf s) = .complete v rest) :
    ∃ u t, s = u ++ t ∧ bytesOf t = rest ∧ Reads parse (bytesOf u) v := by
  obtain ⟨w, hw, hread⟩ := parse_final.complete h
  obtain ⟨u, t, rfl, rfl, rfl⟩ := List.map_eq_append_iff.mp hw
  exact ⟨u, t, rfl, rfl, hread⟩

theorem arrivals_of_complete {v : Value} {rest : Bytes}
    (h : parse (bytesOf s) = .complete v rest) :
    arrivals client s = ⟨client, lastTime (s.take (s.length - rest.length)), .command v⟩ ::
      arrivals client (s.drop (s.length - rest.length)) := by
  rw [arrivals]
  split
  case h_1 v' rest' h' =>
    cases h.symm.trans h'
    rfl
  case h_2 h' => cases h.symm.trans h'
  case h_3 h' => cases h.symm.trans h'

theorem arrivals_append_of_reads {v : Value} (h : Reads parse (bytesOf s) v) (t : List Stamped) :
    arrivals client (s ++ t) = ⟨client, lastTime s, .command v⟩ :: arrivals client t := by
  have hread : parse (bytesOf (s ++ t)) = .complete v (bytesOf t) := by
    rw [bytesOf_append, h]
  rw [arrivals_of_complete hread]
  simp

theorem arrivals_of_incomplete (h : parse (bytesOf s) = .incomplete) : arrivals client s = [] := by
  rw [arrivals]
  split
  case h_1 h' => cases h.symm.trans h'
  case h_2 => rfl
  case h_3 h' => cases h.symm.trans h'

theorem arrivals_of_malformed {e : ProtocolError} (h : parse (bytesOf s) = .malformed e) :
    arrivals client s = [⟨client, lastTime s, .malformed e⟩] := by
  rw [arrivals]
  split
  case h_1 h' => cases h.symm.trans h'
  case h_2 h' => cases h.symm.trans h'
  case h_3 h' =>
    cases h.symm.trans h'
    rfl

/-- Values are taken off the front until none is whole. -/
@[elab_as_elim]
theorem values_induction {motive : List Stamped → Prop}
    (value : ∀ s t v, Reads parse (bytesOf s) v → motive t → motive (s ++ t))
    (incomplete : ∀ s, parse (bytesOf s) = .incomplete → motive s)
    (malformed : ∀ s e, parse (bytesOf s) = .malformed e → motive s) (s : List Stamped) :
    motive s := by
  fun_induction arrivals 0 s with
  | case1 s v rest h used ih =>
      obtain ⟨u, t, rfl, rfl, hread⟩ := exists_append_of_parse h
      have hdrop : (u ++ t).drop used = t := by simp [used]
      exact value u t v hread (hdrop ▸ ih)
  | case2 s h => exact incomplete s h
  | case3 s e h => exact malformed s e h

theorem parseAll_append_of_reads {v : Value} (h : Reads parse (bytesOf s) v) (t : List Stamped) :
    parseAll (bytesOf (s ++ t)) = ⟨v :: (parseAll (bytesOf t)).values,
      (parseAll (bytesOf t)).rest, (parseAll (bytesOf t)).error⟩ := by
  rw [bytesOf_append]
  exact parseAll_of_complete (h (bytesOf t))

/-- The inputs are the values that the bytes hold, and the error behind them. -/
theorem map_input_arrivals (client : Nat) (s : List Stamped) :
    (arrivals client s).map Arrival.input = (parseAll (bytesOf s)).values.map .command ++
      ((parseAll (bytesOf s)).error.map .malformed).toList := by
  induction s using values_induction with
  | value s t v hread ih =>
      rw [arrivals_append_of_reads hread, parseAll_append_of_reads hread, List.map_cons, ih]
      rfl
  | incomplete s h => simp [arrivals_of_incomplete h, parseAll_of_incomplete h]
  | malformed s e h => simp [arrivals_of_malformed h, parseAll_of_malformed h]

theorem filterMap_command?_arrivals (client : Nat) (s : List Stamped) :
    (arrivals client s).filterMap Arrival.command? =
      (parseAll (bytesOf s)).values.map (client, ·) := by
  induction s using values_induction with
  | value s t v hread ih =>
      rw [arrivals_append_of_reads hread, parseAll_append_of_reads hread, List.map_cons, ← ih]
      rfl
  | incomplete s h => simp [arrivals_of_incomplete h, parseAll_of_incomplete h]
  | malformed s e h => simp [arrivals_of_malformed h, parseAll_of_malformed h, Arrival.command?]

theorem client_of_mem_arrivals {a : Arrival} (ha : a ∈ arrivals client s) : a.client = client := by
  induction s using values_induction with
  | value s t v hread ih =>
      rw [arrivals_append_of_reads hread] at ha
      rcases List.mem_cons.mp ha with rfl | ha
      · rfl
      · exact ih ha
  | incomplete s h =>
      rw [arrivals_of_incomplete h] at ha
      cases ha
  | malformed s e h =>
      rw [arrivals_of_malformed h] at ha
      cases List.mem_singleton.mp ha
      rfl

theorem times_sublist (client : Nat) (s : List Stamped) :
    ((arrivals client s).map Arrival.time).Sublist (s.map Prod.snd) := by
  induction s using values_induction with
  | value s t v hread ih =>
      have hs : s ≠ [] := by
        rintro rfl
        cases (hread []).symm.trans rfl
      rw [arrivals_append_of_reads hread, List.map_append]
      exact (singleton_lastTime_sublist [] hs).append ih
  | incomplete s h =>
      rw [arrivals_of_incomplete h]
      exact List.nil_sublist _
  | malformed s e h =>
      have hs : s ≠ [] := by
        rintro rfl
        cases h
      rw [arrivals_of_malformed h]
      exact singleton_lastTime_sublist [] hs

/-- What was not whole before arrives with the bytes that are new. -/
theorem times_append_sublist (h : parse (bytesOf s) = .incomplete) (t : List Stamped) :
    ((arrivals client (s ++ t)).map Arrival.time).Sublist (t.map Prod.snd) := by
  cases hparse : parse (bytesOf (s ++ t)) with
  | incomplete =>
      rw [arrivals_of_incomplete hparse]
      exact List.nil_sublist _
  | malformed e =>
      have ht : t ≠ [] := by
        rintro rfl
        rw [List.append_nil] at hparse
        cases h.symm.trans hparse
      rw [arrivals_of_malformed hparse]
      exact singleton_lastTime_sublist s ht
  | complete v rest =>
      obtain ⟨u, w, happend, rfl, hread⟩ := exists_append_of_parse hparse
      rcases List.append_eq_append_iff.mp happend with ⟨new, rfl, rfl⟩ | ⟨old, rfl, rfl⟩
      · have hnew : new ≠ [] := by
          rintro rfl
          have hwhole := hread []
          simp only [List.append_nil] at hwhole
          cases h.symm.trans hwhole
        rw [← List.append_assoc, arrivals_append_of_reads hread, List.map_append]
        exact (singleton_lastTime_sublist s hnew).append (times_sublist client w)
      · -- the value would have been whole before
        rw [bytesOf_append, hread] at h
        cases h

/-! ### Pieces of a stretch -/

theorem stretches_of_idle {read : List Stamped}
    (h : (parseAll (bytesOf (s ++ read))).error = none) (reads : List (List Stamped)) :
    stretches s (read :: reads) = stretches (s ++ read) reads := by
  simp only [stretches, h]

theorem stretches_of_error {read : List Stamped} {e : ProtocolError}
    (h : (parseAll (bytesOf (s ++ read))).error = some e) (reads : List (List Stamped)) :
    stretches s (read :: reads) = (s ++ read) :: stretches [] reads := by
  simp only [stretches, h]

/-- The bytes `s` bring `front`, and behind that they go on like `rest`. -/
structure Continues (client : Nat) (s rest : List Stamped) (front : List Arrival) : Prop where
  arrivals : ∀ more, arrivals client (s ++ more) = front ++ arrivals client (rest ++ more)
  error : ∀ more,
    (parseAll (bytesOf (s ++ more))).error = (parseAll (bytesOf (rest ++ more))).error

theorem Continues.append {rest : List Stamped} {front : List Arrival}
    (h : Continues client s rest front) (t : List Stamped) :
    Continues client (s ++ t) (rest ++ t) front where
  arrivals more := by simpa using h.arrivals (t ++ more)
  error more := by simpa using h.error (t ++ more)

theorem Continues.flatMap_stretches {rest : List Stamped} {front : List Arrival}
    (h : Continues client s rest front) (reads : List (List Stamped)) :
    (stretches s reads).flatMap (RespCache.arrivals client) =
      front ++ (stretches rest reads).flatMap (RespCache.arrivals client) := by
  induction reads generalizing s rest with
  | nil => simpa [stretches] using h.arrivals []
  | cons read reads ih =>
      cases herror : (parseAll (bytesOf (rest ++ read))).error with
      | none =>
          rw [stretches_of_idle ((h.error read).trans herror), stretches_of_idle herror]
          exact ih (h.append read)
      | some e =>
          rw [stretches_of_error ((h.error read).trans herror), stretches_of_error herror]
          simp [h.arrivals read]

theorem exists_continues (client : Nat) (h : (parseAll (bytesOf s)).error = none) :
    ∃ rest, bytesOf rest = (parseAll (bytesOf s)).rest ∧
      Continues client s rest (arrivals client s) := by
  induction s using values_induction with
  | value s t v hread ih =>
      rw [parseAll_append_of_reads hread] at h ⊢
      obtain ⟨rest, hrest, hgoes⟩ := ih h
      refine ⟨rest, hrest, fun more => ?_, fun more => ?_⟩
      · rw [List.append_assoc, arrivals_append_of_reads hread, arrivals_append_of_reads hread,
          hgoes.arrivals, List.cons_append]
      · rw [List.append_assoc, parseAll_append_of_reads hread]
        exact hgoes.error more
  | incomplete s hparse =>
      refine ⟨s, by rw [parseAll_of_incomplete hparse], fun more => ?_, fun more => rfl⟩
      rw [arrivals_of_incomplete hparse, List.nil_append]
  | malformed s e hparse =>
      rw [parseAll_of_malformed hparse] at h
      cases h

/-- The bytes that are kept for the next read. -/
def Resp.Parsed.kept (p : Parsed) : Bytes :=
  match p.error with
  | none => p.rest
  | some _ => []

theorem parse_kept (bs : Bytes) : parse (parseAll bs).kept = .incomplete := by
  cases h : (parseAll bs).error with
  | none =>
      simp only [Parsed.kept, h]
      exact parse_rest_of_idle h
  | some e =>
      simp only [Parsed.kept, h]
      rfl

/-- What a read brings, and then what the bytes kept bring together with the later reads. -/
theorem exists_flatMap_stretches_cons (client : Nat) (s read : List Stamped) :
    ∃ kept, bytesOf kept = (parseAll (bytesOf (s ++ read))).kept ∧
      ∀ reads, (stretches s (read :: reads)).flatMap (arrivals client) =
        arrivals client (s ++ read) ++ (stretches kept reads).flatMap (arrivals client) := by
  cases herror : (parseAll (bytesOf (s ++ read))).error with
  | none =>
      obtain ⟨rest, hrest, hgoes⟩ := exists_continues client herror
      refine ⟨rest, by simp only [Parsed.kept, herror, hrest], fun reads => ?_⟩
      rw [stretches_of_idle herror]
      exact hgoes.flatMap_stretches reads
  | some e =>
      refine ⟨[], by simp only [Parsed.kept, herror, bytesOf_nil], fun reads => ?_⟩
      rw [stretches_of_error herror, List.flatMap_cons]

end Arrivals

end RespCache
