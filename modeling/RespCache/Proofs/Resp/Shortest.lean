import RespCache.Proofs.Resp.RoundTrip

/-!
The shortest frame of a value. A value has many frames, for the numbers in them may have signs and
zeros in front. The one that is written has the fewest bytes, and no other frame of the value has as
few (`encode_shortest`); every number in a frame adds what it has too many, at any depth.
-/

namespace RespCache.Resp

open Bytes (SameOrShorter)

theorem sameOrShorter_headerLine (m : Marker) {body body' : Bytes} (h : body.SameOrShorter body') :
    (headerLine m body).SameOrShorter (headerLine m body') :=
  (h.append (.refl Bytes.crlf)).cons m.byte

mutual

theorem Frame.sameOrShorter {depth : Nat} {w : Bytes} {v : Value} :
    Frame depth w v → v.encode.SameOrShorter w
  | .simple _ => .refl _
  | .error _ => .refl _
  | .integer hn => sameOrShorter_headerLine .integer hn.sameOrShorter
  | .bulk hn _ => (sameOrShorter_headerLine .bulk hn.sameOrShorter).append (.refl _)
  | .nullBulk hn => sameOrShorter_headerLine .bulk hn.sameOrShorter
  | .array _ hn _ hitems =>
      (sameOrShorter_headerLine .array hn.sameOrShorter).append hitems.sameOrShorter
  | .nullArray _ hn => sameOrShorter_headerLine .array hn.sameOrShorter

theorem Frames.sameOrShorter {depth : Nat} {w : Bytes} {items : List Value} :
    Frames depth w items → (encodeAll items).SameOrShorter w
  | .nil => .refl _
  | .cons hv hvs => hv.sameOrShorter.append hvs.sameOrShorter

end

/-- What is written for a value that was read is read as this value, and it is shorter than the bytes
that the value was read from, unless it is the same bytes. -/
theorem encode_shortest {buffer rest : Bytes} {v : Value} (h : parse buffer = .complete v rest) :
    ∃ w, buffer = w ++ rest ∧ parse (v.encode ++ rest) = .complete v rest ∧
      v.encode.length ≤ w.length ∧ (v.encode.length = w.length ↔ v.encode = w) := by
  obtain ⟨w, hbuffer, hframe⟩ := frame_of_readValue (Nat.zero_add _) h
  have hshorter := hframe.sameOrShorter
  refine ⟨w, hbuffer, ?_, hshorter.length_le, hshorter.length_eq_iff⟩
  exact reads_encode (Nat.zero_add _) hframe.wellFormedAt rest

/-- An array with signs and zeros in front of its numbers: its length, an item, the length of a bulk
string and that of a null. -/
theorem encode_shortest_signs :
    let w : Bytes := [42, 43, 51, 13, 10, 58, 45, 48, 13, 10, 36, 48, 49, 13, 10, 97, 13, 10, 42, 45,
      48, 49, 13, 10]
    let v : Value := .array [.integer 0, .bulk [97], .nullArray]
    parse (w ++ [33]) = .complete v [33] ∧ parse (v.encode ++ [33]) = .complete v [33] ∧
      v.encode.length ≤ w.length ∧ (v.encode.length = w.length ↔ v.encode = w) := by
  intro w v
  have hread : parse (w ++ [33]) = .complete v [33] := rfl
  obtain ⟨w', hbuffer, hshortest⟩ := encode_shortest hread
  cases List.append_cancel_right hbuffer
  exact ⟨hread, hshortest⟩

end RespCache.Resp
