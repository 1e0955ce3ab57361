import RespCache.Proofs.Resp.Lines

/-!
The grammar of the format. `Frame d w v` says that the bytes `w` are one frame inside `d` arrays and
denote `v`; a number may have a sign and zeros in front, so a value has many frames. Every frame is
read as its value, whatever follows it (`Frame.reads`), and whatever is read is a frame
(`frame_of_readValue`). Both proofs carry the arrays along: those around a frame and those that may
still open inside it make up `maxDepth`.
-/

namespace RespCache.Resp

open Decimal (Numeral)

mutual

/-- The bytes are one frame inside so many arrays, and denote the value. -/
inductive Frame : Nat → Bytes → Value → Prop where
  | simple {d : Nat} {text : String} : (Utf8.encode text).Unbroken →
      Frame d (headerLine .simple (Utf8.encode text)) (.simple text)
  | error {d : Nat} {text : String} : (Utf8.encode text).Unbroken →
      Frame d (headerLine .error (Utf8.encode text)) (.error text)
  | integer {d : Nat} {w : Bytes} {n : Int64} : Numeral w n.toInt →
      Frame d (headerLine .integer w) (.integer n)
  | bulk {d : Nat} {w data : Bytes} : Numeral w data.length → data.length ≤ 512 * 1024 * 1024 →
      Frame d (headerLine .bulk w ++ (data ++ Bytes.crlf)) (.bulk data)
  | nullBulk {d : Nat} {w : Bytes} : Numeral w (-1) → Frame d (headerLine .bulk w) .nullBulk
  | array {d : Nat} {w body : Bytes} {items : List Value} : d < 32 →
      Numeral w items.length → items.length ≤ 1024 * 1024 → Frames (d + 1) body items →
      Frame d (headerLine .array w ++ body) (.array items)
  | nullArray {d : Nat} {w : Bytes} : d < 32 → Numeral w (-1) →
      Frame d (headerLine .array w) .nullArray

/-- The bytes are frames inside so many arrays, one after the other, and denote the values. -/
inductive Frames : Nat → Bytes → List Value → Prop where
  | nil {d : Nat} : Frames d [] []
  | cons {d : Nat} {w ws : Bytes} {v : Value} {vs : List Value} :
      Frame d w v → Frames d ws vs → Frames d (w ++ ws) (v :: vs)

end

/-! ### Every frame is read -/

theorem readValue_headerLine (room : Nat) (m : Marker) (body rest : Bytes) :
    readValue room (headerLine m body ++ rest) =
      match m with
      | .simple => (readText (body ++ (Bytes.crlf ++ rest))).map .simple
      | .error => (readText (body ++ (Bytes.crlf ++ rest))).map .error
      | .integer => (readInteger (body ++ (Bytes.crlf ++ rest))).map .integer
      | .bulk => readBulk (body ++ (Bytes.crlf ++ rest))
      | .array =>
        match room with
        | 0 => .malformed .tooDeep
        | room + 1 => readArray (readValue room) (body ++ (Bytes.crlf ++ rest)) := by
  rw [headerLine, List.cons_append, List.append_assoc]
  unfold readValue
  simp only [Marker.ofByte?_byte]
  cases m <;> rfl

/-- Inside fewer than 32 arrays one more may open. -/
theorem exists_eq_succ_of_lt {depth room : Nat} (hroom : depth + room = maxDepth)
    (hdepth : depth < 32) : ∃ inner, room = inner + 1 := by
  have hmax : maxDepth = 32 := rfl
  exact ⟨room - 1, by omega⟩

mutual

theorem Frame.reads {depth room : Nat} {w : Bytes} {v : Value}
    (hroom : depth + room = maxDepth) : Frame depth w v → Reads (readValue room) w v
  | .simple htext => by
      intro more
      rw [readValue_headerLine]
      refine Reading.map_eq_complete_iff.mpr ⟨_, ?_, rfl⟩
      exact readText_eq_complete_iff.mpr ⟨Utf8.unbroken_encode_iff.mp htext, rfl⟩
  | .error htext => by
      intro more
      rw [readValue_headerLine]
      refine Reading.map_eq_complete_iff.mpr ⟨_, ?_, rfl⟩
      exact readText_eq_complete_iff.mpr ⟨Utf8.unbroken_encode_iff.mp htext, rfl⟩
  | .integer hn => by
      intro more
      rw [readValue_headerLine]
      refine Reading.map_eq_complete_iff.mpr ⟨_, ?_, rfl⟩
      exact readInteger_eq_complete_iff.mpr ⟨_, hn, rfl⟩
  | .bulk hn hlimit => by
      intro more
      rw [List.append_assoc, readValue_headerLine]
      refine Reading.andThen_eq_complete_iff.mpr
        ⟨_, _, readLength_eq_length_iff.mpr ⟨_, hn, hlimit, rfl⟩, ?_⟩
      refine Reading.map_eq_complete_iff.mpr ⟨_, ?_, rfl⟩
      exact readPayload_eq_complete_iff.mpr ⟨rfl, List.append_assoc _ _ _⟩
  | .nullBulk hn => by
      intro more
      rw [readValue_headerLine]
      exact Reading.andThen_eq_complete_iff.mpr
        ⟨_, _, readLength_eq_null_iff.mpr ⟨_, hn, rfl⟩, rfl⟩
  | .array hdepth hn hlimit hitems => by
      intro more
      obtain ⟨room, rfl⟩ := exists_eq_succ_of_lt hroom hdepth
      rw [List.append_assoc, readValue_headerLine]
      refine Reading.andThen_eq_complete_iff.mpr
        ⟨_, _, readLength_eq_length_iff.mpr ⟨_, hn, hlimit, rfl⟩, ?_⟩
      refine Reading.map_eq_complete_iff.mpr ⟨_, ?_, rfl⟩
      exact hitems.readItems (by omega) [] more
  | .nullArray hdepth hn => by
      intro more
      obtain ⟨room, rfl⟩ := exists_eq_succ_of_lt hroom hdepth
      rw [readValue_headerLine]
      exact Reading.andThen_eq_complete_iff.mpr
        ⟨_, _, readLength_eq_null_iff.mpr ⟨_, hn, rfl⟩, rfl⟩

theorem Frames.readItems {depth room : Nat} {w : Bytes} {items : List Value}
    (hroom : depth + room = maxDepth) (done : List Value) (rest : Bytes) :
    Frames depth w items →
      Resp.readItems (readValue room) items.length done (w ++ rest) =
        .complete (done.reverse ++ items) rest
  | .nil => by rw [List.append_nil]; rfl
  | .cons (v := v) hv hvs => by
      rw [List.length_cons, Resp.readItems, List.append_assoc, hv.reads hroom, Reading.andThen,
        hvs.readItems hroom (v :: done), List.reverse_cons, List.append_assoc,
        List.singleton_append]

end

/-! ### Whatever is read is a frame -/

theorem frames_of_readItems {readItem : Bytes → Reading Value} {depth : Nat}
    (hItem : ∀ {bs v rest}, readItem bs = .complete v rest → ∃ w, bs = w ++ rest ∧ Frame depth w v)
    {n : Nat} {done items : List Value} {bs rest : Bytes}
    (h : readItems readItem n done bs = .complete items rest) :
    ∃ w vs, items = done.reverse ++ vs ∧ vs.length = n ∧ bs = w ++ rest ∧ Frames depth w vs := by
  induction n generalizing done bs with
  | zero =>
      cases h
      exact ⟨[], [], (List.append_nil _).symm, rfl, rfl, .nil⟩
  | succ n ih =>
      obtain ⟨v, mid, hv, hvs⟩ := Reading.andThen_eq_complete_iff.mp h
      obtain ⟨w, rfl, hframe⟩ := hItem hv
      obtain ⟨ws, vs, rfl, rfl, rfl, hframes⟩ := ih hvs
      exact ⟨w ++ ws, v :: vs, by simp, rfl, (List.append_assoc _ _ _).symm, .cons hframe hframes⟩

theorem frame_of_readBulk {depth : Nat} {v : Value} {bs rest : Bytes}
    (h : readBulk bs = .complete v rest) :
    ∃ w, Marker.bulk.byte :: bs = w ++ rest ∧ Frame depth w v := by
  obtain ⟨length, mid, hlength, h⟩ := Reading.andThen_eq_complete_iff.mp h
  cases length with
  | none =>
      cases h
      obtain ⟨w, hw, rfl⟩ := readLength_eq_null_iff.mp hlength
      exact ⟨_, by simp [headerLine], .nullBulk hw⟩
  | some n =>
      obtain ⟨data, hdata, rfl⟩ := Reading.map_eq_complete_iff.mp h
      obtain ⟨rfl, rfl⟩ := readPayload_eq_complete_iff.mp hdata
      obtain ⟨w, hw, hlimit, rfl⟩ := readLength_eq_length_iff.mp hlength
      exact ⟨_, by simp [headerLine], .bulk hw hlimit⟩

theorem frame_of_readArray {readItem : Bytes → Reading Value} {depth : Nat} (hdepth : depth < 32)
    (hItem : ∀ {bs v rest}, readItem bs = .complete v rest →
      ∃ w, bs = w ++ rest ∧ Frame (depth + 1) w v)
    {v : Value} {bs rest : Bytes} (h : readArray readItem bs = .complete v rest) :
    ∃ w, Marker.array.byte :: bs = w ++ rest ∧ Frame depth w v := by
  obtain ⟨length, mid, hlength, h⟩ := Reading.andThen_eq_complete_iff.mp h
  cases length with
  | none =>
      cases h
      obtain ⟨w, hw, rfl⟩ := readLength_eq_null_iff.mp hlength
      exact ⟨_, by simp [headerLine], .nullArray hdepth hw⟩
  | some n =>
      obtain ⟨items, hitems, rfl⟩ := Reading.map_eq_complete_iff.mp h
      obtain ⟨body, items, rfl, rfl, rfl, hframes⟩ := frames_of_readItems hItem hitems
      obtain ⟨w, hw, hlimit, rfl⟩ := readLength_eq_length_iff.mp hlength
      exact ⟨_, by simp [headerLine], .array hdepth hw hlimit hframes⟩

theorem frame_of_readValue {depth room : Nat} {v : Value} {bs rest : Bytes}
    (hroom : depth + room = maxDepth) (h : readValue room bs = .complete v rest) :
    ∃ w, bs = w ++ rest ∧ Frame depth w v := by
  -- the items of an array are read with less room, at a greater depth
  induction room using Nat.strongRecOn generalizing v depth bs rest with
  | ind room ih =>
      unfold readValue at h
      cases bs with
      | nil => cases h
      | cons b bs =>
          cases hb : Marker.ofByte? b with
          | none => simp [hb] at h
          | some m =>
              obtain rfl := Marker.ofByte?_eq_some_iff.mp hb
              simp only [hb] at h
              cases m with
              | simple =>
                  obtain ⟨text, htext, rfl⟩ := Reading.map_eq_complete_iff.mp h
                  obtain ⟨hbody, rfl⟩ := readText_eq_complete_iff.mp htext
                  exact ⟨_, by simp [headerLine], .simple (Utf8.unbroken_encode_iff.mpr hbody)⟩
              | error =>
                  obtain ⟨text, htext, rfl⟩ := Reading.map_eq_complete_iff.mp h
                  obtain ⟨hbody, rfl⟩ := readText_eq_complete_iff.mp htext
                  exact ⟨_, by simp [headerLine], .error (Utf8.unbroken_encode_iff.mpr hbody)⟩
              | integer =>
                  obtain ⟨n, hn, rfl⟩ := Reading.map_eq_complete_iff.mp h
                  obtain ⟨w, hw, rfl⟩ := readInteger_eq_complete_iff.mp hn
                  exact ⟨_, by simp [headerLine], .integer hw⟩
              | bulk => exact frame_of_readBulk h
              | array =>
                  cases room with
                  | zero => cases h
                  | succ room =>
                      have hmax : maxDepth = 32 := rfl
                      refine frame_of_readArray (by omega) (fun hread => ?_) h
                      exact ih room (Nat.lt_succ_self room) (by omega) hread

/-- No frame starts with another one. -/
theorem Frame.unique {depth : Nat} {w w' : Bytes} {v v' : Value} {rest rest' : Bytes}
    (hdepth : depth ≤ maxDepth) (hw : Frame depth w v) (hw' : Frame depth w' v')
    (h : w ++ rest = w' ++ rest') : w = w' ∧ v = v' := by
  have hroom := Nat.add_sub_cancel' hdepth
  have hread := hw.reads hroom rest
  rw [h, hw'.reads hroom rest'] at hread
  cases hread
  exact ⟨List.append_cancel_right h, rfl⟩

/-- What is read off a buffer is the frame of a value at its front, and that frame is read. -/
theorem parse_eq_complete_iff {buffer : Bytes} {v : Value} {rest : Bytes} :
    parse buffer = .complete v rest ↔ ∃ w, buffer = w ++ rest ∧ Frame 0 w v := by
  constructor
  · exact frame_of_readValue (Nat.zero_add _)
  · rintro ⟨w, rfl, hw⟩
    exact hw.reads (Nat.zero_add _) rest

end RespCache.Resp
