import RespCache.Proofs.Resp.Scanning

/-!
A framer at a buffer that fills in pieces. Whatever was appended and taken before, the next frame it
takes is what reading the whole buffer gives. The invariant is `Framer.At`: the framer stands behind
the first bytes of the buffer, and scanning from there is scanning all.
-/

namespace RespCache.Resp

universe u

/-- What a reading of `buffer` leaves in it; only a complete one takes something off. -/
def Reading.left {α : Type u} (buffer : Bytes) : Reading α → Bytes
  | .complete _ rest => rest
  | .incomplete => buffer
  | .malformed _ => buffer

namespace Framer

/-- The framer stands behind the first bytes of the buffer, with what a scan from its beginning owes
there. -/
def At (f : Framer) (buffer : Bytes) : Prop :=
  ∃ passed rest, buffer = passed ++ rest ∧ f.scanned = passed.length ∧
    ∀ more, scan [] (passed ++ more) = scan f.owed more

theorem at_start (buffer : Bytes) : At {} buffer := ⟨[], buffer, rfl, rfl, fun _ => rfl⟩

theorem At.append {f : Framer} {buffer : Bytes} (hf : f.At buffer) (data : Bytes) :
    f.At (buffer ++ data) := by
  obtain ⟨passed, rest, rfl, hscanned, hscan⟩ := hf
  exact ⟨passed, rest ++ data, by simp, hscanned, hscan⟩

theorem At.scanned_le {f : Framer} {buffer : Bytes} (hf : f.At buffer) :
    f.scanned ≤ buffer.length := by
  obtain ⟨passed, rest, rfl, hscanned, -⟩ := hf
  simp [hscanned]

/-- At a buffer, the framer's next scan is the scan of all of it. -/
theorem At.scan_drop {f : Framer} {buffer : Bytes} (hf : f.At buffer) :
    scan f.owed (buffer.drop f.scanned) = scan [] buffer := by
  obtain ⟨passed, rest, rfl, hscanned, hscan⟩ := hf
  rw [hscanned, List.drop_left, hscan]

/-- What is taken is decided by the scan of the whole buffer. -/
theorem At.next_snd {f : Framer} {buffer : Bytes} (hf : f.At buffer) :
    (f.next buffer).2 =
      match scan [] buffer with
      | .frame => parse buffer
      | .short _ _ => .incomplete
      | .malformed e => .malformed e := by
  unfold Framer.next
  dsimp only
  rw [hf.scan_drop]
  cases scan [] buffer <;> rfl

theorem At.next_eq_parse {f : Framer} {buffer : Bytes} (hf : f.At buffer) :
    (f.next buffer).2 = parse buffer := by
  have hfollows := scan_follows_parse buffer
  rw [hf.next_snd]
  cases hparse : parse buffer with
  | complete value rest =>
      rw [hparse] at hfollows
      have hscan : scan [] buffer = .frame := hfollows
      simp only [hscan]
  | incomplete =>
      rw [hparse] at hfollows
      obtain ⟨owed, rest, hscan⟩ := hfollows
      simp only [hscan]
  | malformed e =>
      rw [hparse] at hfollows
      have hscan : scan [] buffer = .malformed e := hfollows
      simp only [hscan]

theorem At.next {f : Framer} {buffer : Bytes} (hf : f.At buffer) :
    (f.next buffer).1.At ((f.next buffer).2.left buffer) := by
  obtain ⟨passed, rest, rfl, hscanned, hscan⟩ := hf
  unfold Framer.next
  dsimp only
  rw [hscanned, List.drop_left]
  cases hrest : scan f.owed rest with
  | frame => exact at_start _
  | malformed e => exact at_start _
  | short owed rest' =>
      obtain ⟨passed', rfl, hresumes⟩ := scan_resumes hrest
      refine ⟨passed ++ passed', rest', by simp [Reading.left], by simp, fun more => ?_⟩
      rw [List.append_assoc, hscan, hresumes]

/-- The framers and buffers that come about when bytes are appended, frames are taken, and the
buffer is dropped right after an error. -/
inductive Reaches : Framer → Bytes → Prop where
  | start : Reaches {} []
  | append {f : Framer} {buffer : Bytes} (data : Bytes) :
      Reaches f buffer → Reaches f (buffer ++ data)
  | next {f : Framer} {buffer : Bytes} :
      Reaches f buffer → Reaches (f.next buffer).1 ((f.next buffer).2.left buffer)
  | drop {f : Framer} {buffer : Bytes} {e : ProtocolError} :
      Reaches f buffer → (f.next buffer).2 = .malformed e → Reaches (f.next buffer).1 []

theorem next_of_malformed {f : Framer} {buffer : Bytes} {e : ProtocolError}
    (h : (f.next buffer).2 = .malformed e) : (f.next buffer).1 = {} := by
  unfold Framer.next at h ⊢
  dsimp only at h ⊢
  split at h
  · rfl
  · cases h
  · rfl

theorem Reaches.at {f : Framer} {buffer : Bytes} (h : Reaches f buffer) : f.At buffer := by
  induction h with
  | start => exact at_start []
  | append data _ ih => exact ih.append data
  | next _ ih => exact ih.next
  | drop _ herror _ =>
      rw [next_of_malformed herror]
      exact at_start []

/-- Taking the next frame gives what reading the whole buffer gives, and leaves the same buffer. -/
theorem next_eq_parse_of_reaches {f : Framer} {buffer : Bytes} (h : Reaches f buffer) :
    (f.next buffer).2 = parse buffer ∧
      (f.next buffer).2.left buffer = (parse buffer).left buffer := by
  have hnext := h.at.next_eq_parse
  exact ⟨hnext, by rw [hnext]⟩

/-- A command that arrives in two pieces, cut inside its second item. -/
theorem next_eq_parse_of_cut_get :
    let arrived : Bytes := [42, 50, 13, 10, 36, 51, 13, 10, 71, 69, 84, 13, 10, 36, 51, 13, 10, 107]
    let buffer : Bytes := arrived ++ [101, 121, 13, 10]
    let f : Framer := { scanned := 13, owed := [1] }
    Reaches f buffer ∧ (f.next buffer).2 = parse buffer ∧
      (f.next buffer).2.left buffer = (parse buffer).left buffer := by
  intro arrived buffer f
  have hscan : scan [] arrived = .short [1] [36, 51, 13, 10, 107] := by
    calc scan [] arrived = scan [2] [36, 51, 13, 10, 71, 69, 84, 13, 10, 36, 51, 13, 10, 107] :=
          scan_eq [] arrived
      _ = scan [1] [36, 51, 13, 10, 107] := scan_eq [2] _
      _ = .short [1] [36, 51, 13, 10, 107] := scan_eq [1] _
  have hnext : ({} : Framer).next arrived = (f, .incomplete) := by
    unfold Framer.next
    dsimp only
    rw [List.drop_zero, hscan]
    rfl
  have hcut : Reaches f arrived := by
    have hleft := Reaches.next (.append arrived .start)
    rwa [List.nil_append, hnext] at hleft
  have hreaches : Reaches f buffer := hcut.append _
  exact ⟨hreaches, next_eq_parse_of_reaches hreaches⟩

end Framer

end RespCache.Resp
