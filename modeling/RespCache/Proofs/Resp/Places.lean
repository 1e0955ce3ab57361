import RespCache.Proofs.Resp.Finality

/-!
Reading by places. Here a reader stands at a place in a buffer that it never cuts, and everything that
could stop it is checked: slices have to lie in the buffer, differences must not fall below zero, and
a value must not be entered inside more arrays than may be open. No check ever fails, and what is
found is what reading the rest of the buffer gives (`Agrees`). The property composes
(`Agrees.andThen`), so that each reader has it because its parts do.
-/

namespace RespCache.Resp

universe u v

inductive Fault where
  /-- a slice that does not lie in the bytes it is cut from -/
  | slice
  /-- a difference below zero -/
  | difference
  /-- a value inside too many arrays -/
  | depth
  /-- an open array that is owed nothing, or too many of them -/
  | owed
  /-- a token that ends where it began, or behind the buffer -/
  | token
  /-- more bytes given up than there are -/
  | advance

/-- The bytes from `start` on and before `stop`. -/
def slice (bs : Bytes) (start stop : Nat) : Except Fault Bytes :=
  if start ≤ stop ∧ stop ≤ bs.length then .ok ((bs.take stop).drop start) else .error .slice

def difference (m n : Nat) : Except Fault Nat :=
  if n ≤ m then .ok (m - n) else .error .difference

theorem slice_eq {bs : Bytes} {start stop : Nat} (horder : start ≤ stop)
    (hlength : stop ≤ bs.length) : slice bs start stop = .ok ((bs.take stop).drop start) :=
  if_pos ⟨horder, hlength⟩

theorem difference_eq {m n : Nat} (h : n ≤ m) : difference m n = .ok (m - n) := if_pos h

/-- What a reader finds: a value and the place behind it, or too few bytes, or wrong ones. -/
inductive Found (α : Type u) where
  | complete (value : α) (place : Nat)
  | incomplete
  | malformed (error : ProtocolError)

namespace Found

variable {α : Type u} {β : Type v}

def andThen (r : Except Fault (Found α)) (f : α → Nat → Except Fault (Found β)) :
    Except Fault (Found β) :=
  match r with
  | .error fault => .error fault
  | .ok (.complete value place) => f value place
  | .ok .incomplete => .ok .incomplete
  | .ok (.malformed e) => .ok (.malformed e)

def map (f : α → β) (r : Except Fault (Found α)) : Except Fault (Found β) :=
  andThen r fun value place => .ok (.complete (f value) place)

end Found

/-! ### The readers -/

def breakAt? : Bytes → Option Nat
  | [] => none
  | 13 :: 10 :: _ => some 0
  | _ :: bs => (breakAt? bs).map (· + 1)

def lineAt (bs : Bytes) (place : Nat) : Except Fault (Found Bytes) := do
  let rest ← slice bs place bs.length
  match breakAt? rest with
  | none => .ok .incomplete
  | some n =>
    let line ← slice rest 0 n
    .ok (.complete line (place + (n + 2)))

def textAt (bs : Bytes) (place : Nat) : Except Fault (Found String) :=
  Found.andThen (lineAt bs place) fun line place =>
    match Utf8.decode? line with
    | some text => .ok (.complete text place)
    | none => .ok (.malformed .invalidUtf8)

def integerAt (bs : Bytes) (place : Nat) : Except Fault (Found Int64) :=
  Found.andThen (lineAt bs place) fun line place =>
    match Decimal.int64? line with
    | some n => .ok (.complete n place)
    | none => .ok (.malformed .invalidInteger)

def lengthAt (kind : Sized) (bs : Bytes) (place : Nat) : Except Fault (Found (Option Nat)) :=
  Found.andThen (integerAt bs place) fun n place =>
    if n = -1 then .ok (.complete none place)
    else if n < -1 then .ok (.malformed (.invalidLength n))
    else if kind.limit < n.toInt.toNat then .ok (.malformed (.tooLarge kind n.toInt.toNat))
    else .ok (.complete (some n.toInt.toNat) place)

def payloadAt (bs : Bytes) (length place : Nat) : Except Fault (Found Bytes) := do
  let left ← difference bs.length place
  if left < length + 2 then .ok .incomplete
  else
    let data ← slice bs place (place + length)
    let ending ← slice bs (place + length) (place + length + 2)
    if ending ≠ Bytes.crlf then .ok (.malformed .missingTerminator)
    else .ok (.complete data (place + (length + 2)))

def bulkAt (bs : Bytes) (place : Nat) : Except Fault (Found Value) :=
  Found.andThen (lengthAt .bulk bs place) fun length place =>
    match length with
    | none => .ok (.complete .nullBulk place)
    | some length => Found.map .bulk (payloadAt bs length place)

def itemsAt (itemAt : Nat → Except Fault (Found Value)) :
    Nat → List Value → Nat → Except Fault (Found (List Value))
  | 0, items, place => .ok (.complete items.reverse place)
  | n + 1, items, place =>
    Found.andThen (itemAt place) fun item place => itemsAt itemAt n (item :: items) place

def arrayAt (itemAt : Nat → Except Fault (Found Value)) (bs : Bytes) (place : Nat) :
    Except Fault (Found Value) :=
  Found.andThen (lengthAt .array bs place) fun length place =>
    match length with
    | none => .ok (.complete .nullArray place)
    | some length => Found.map .array (itemsAt itemAt length [] place)

def valueAt (bs : Bytes) (depth place : Nat) : Except Fault (Found Value) :=
  if 32 < depth then .error .depth
  else
    match bs[place]? with
    | none => .ok .incomplete
    | some b =>
      match Marker.ofByte? b with
      | none => .ok (.malformed (.unknownType b))
      | some .simple => Found.map .simple (textAt bs (place + 1))
      | some .error => Found.map .error (textAt bs (place + 1))
      | some .integer => Found.map .integer (integerAt bs (place + 1))
      | some .bulk => bulkAt bs (place + 1)
      | some .array =>
        if maxDepth ≤ depth then .ok (.malformed .tooDeep)
        else arrayAt (valueAt bs (depth + 1)) bs (place + 1)
termination_by maxDepth + 1 - depth

/-- Gives up the first `n` bytes. -/
def advance (buffer : Bytes) (n : Nat) : Except Fault Bytes :=
  if n ≤ buffer.length then .ok (buffer.drop n) else .error .advance

/-- Takes one value off the front of a buffer, which is given up as far as the value goes: what is
answered, and the buffer afterwards. -/
def parseAt (buffer : Bytes) : Except Fault (Except ProtocolError (Option Value) × Bytes) := do
  match ← valueAt buffer 0 0 with
  | .complete value place =>
    let left ← advance buffer place
    .ok (.ok (some value), left)
  | .incomplete => .ok (.ok none, buffer)
  | .malformed e => .ok (.error e, buffer)

def tokenAt (bs : Bytes) (depth place : Nat) : Except Fault (Found Token) :=
  match bs[place]? with
  | none => .ok .incomplete
  | some b =>
    match Marker.ofByte? b with
    | none => .ok (.malformed (.unknownType b))
    | some .simple | some .error => Found.map (fun _ => .whole) (textAt bs (place + 1))
    | some .integer => Found.map (fun _ => .whole) (integerAt bs (place + 1))
    | some .bulk =>
      Found.andThen (lengthAt .bulk bs (place + 1)) fun length place =>
        match length with
        | none => .ok (.complete .whole place)
        | some length => Found.map (fun _ => .whole) (payloadAt bs length place)
    | some .array =>
      if maxDepth ≤ depth then .ok (.malformed .tooDeep)
      else
        Found.map (fun length => match length with | none | some 0 => .whole | some n => .opens n)
          (lengthAt .array bs (place + 1))

/-! ### Agreement with reading the rest -/

/-- No check fails, and what is found is what the reading gives, the rest being the bytes from the
place on. -/
def Agrees {α : Type u} (bs : Bytes) (r : Except Fault (Found α)) : Reading α → Prop
  | .complete value rest =>
    ∃ place, r = .ok (.complete value place) ∧ place ≤ bs.length ∧ rest = bs.drop place
  | .incomplete => r = .ok .incomplete
  | .malformed e => r = .ok (.malformed e)

namespace Agrees

variable {α : Type u} {β : Type v} {bs : Bytes}

theorem complete (value : α) {place : Nat} (hplace : place ≤ bs.length) :
    Agrees bs (.ok (.complete value place)) (.complete value (bs.drop place)) :=
  ⟨place, rfl, hplace, rfl⟩

theorem andThen {r : Except Fault (Found α)} {s : Reading α} {f : α → Nat → Except Fault (Found β)}
    {g : α → Bytes → Reading β} (hr : Agrees bs r s)
    (hf : ∀ value place, place ≤ bs.length → Agrees bs (f value place) (g value (bs.drop place))) :
    Agrees bs (Found.andThen r f) (s.andThen g) := by
  cases s with
  | complete value rest =>
      obtain ⟨place, rfl, hplace, rfl⟩ := hr
      exact hf value place hplace
  | incomplete =>
      cases hr
      rfl
  | malformed e =>
      cases hr
      rfl

theorem map {r : Except Fault (Found α)} {s : Reading α} (f : α → β) (hr : Agrees bs r s) :
    Agrees bs (Found.map f r) (s.map f) :=
  hr.andThen fun value _ hplace => complete (f value) hplace

/-- A reader that takes bytes off ends behind the place where it began. -/
theorem lt_of_shortens {r : Except Fault (Found α)} {place place' : Nat} {value : α}
    {s : Reading α} (hr : Agrees bs r s) (hs : s.Shortens (bs.drop place).length)
    (hfound : r = .ok (.complete value place')) : place < place' ∧ place' ≤ bs.length := by
  cases s with
  | complete value rest =>
      obtain ⟨end', rfl, hend, rfl⟩ := hr
      cases hfound
      have hlt := hs value _ rfl
      rw [List.length_drop, List.length_drop] at hlt
      exact ⟨by omega, hend⟩
  | incomplete => cases hr.symm.trans hfound
  | malformed e => cases hr.symm.trans hfound

end Agrees

/-! ### Lines -/

theorem splitLineFrom_eq_breakAt? (seen bs : Bytes) :
    Bytes.splitLineFrom seen bs =
      (breakAt? bs).map fun n => (seen.reverse ++ bs.take n, bs.drop (n + 2)) := by
  fun_induction Bytes.splitLineFrom seen bs with
  | case1 => rfl
  | case2 seen rest => simp [breakAt?]
  | case3 seen b rest hne ih =>
      rw [ih, breakAt?.eq_3 b rest hne]
      cases breakAt? rest with
      | none => rfl
      | some n => simp

/-- A CR LF that is found lies in the bytes, and so does the line before it. -/
theorem breakAt?_le {bs : Bytes} {n : Nat} (hn : breakAt? bs = some n) : n + 2 ≤ bs.length := by
  fun_induction breakAt? bs generalizing n with
  | case1 => cases hn
  | case2 rest =>
      cases hn
      simp
  | case3 b rest _ ih =>
      obtain ⟨m, hm, rfl⟩ := Option.map_eq_some_iff.mp hn
      have hle := ih hm
      rw [List.length_cons]
      omega

theorem lineAt_agrees (bs : Bytes) {place : Nat} (hplace : place ≤ bs.length) :
    Agrees bs (lineAt bs place) (readLine (bs.drop place)) := by
  have hrest : slice bs place bs.length = .ok (bs.drop place) := by
    rw [slice_eq hplace (Nat.le_refl _), List.take_length]
  rw [lineAt, hrest, readLine, Bytes.splitLine, splitLineFrom_eq_breakAt?]
  simp only [bind, Except.bind]
  cases hbreak : breakAt? (bs.drop place) with
  | none => rfl
  | some n =>
      have hend := breakAt?_le hbreak
      have hline : slice (bs.drop place) 0 n = .ok ((bs.drop place).take n) := by
        rw [slice_eq (Nat.zero_le n) (by omega), List.drop_zero]
      simp only [hline]
      rw [List.length_drop] at hend
      refine ⟨place + (n + 2), rfl, by omega, ?_⟩
      rw [List.drop_drop]

theorem textAt_agrees (bs : Bytes) {place : Nat} (hplace : place ≤ bs.length) :
    Agrees bs (textAt bs place) (readText (bs.drop place)) := by
  refine (lineAt_agrees bs hplace).andThen fun line place hplace => ?_
  cases Utf8.decode? line with
  | some text => exact .complete text hplace
  | none => rfl

theorem integerAt_agrees (bs : Bytes) {place : Nat} (hplace : place ≤ bs.length) :
    Agrees bs (integerAt bs place) (readInteger (bs.drop place)) := by
  refine (lineAt_agrees bs hplace).andThen fun line place hplace => ?_
  cases Decimal.int64? line with
  | some n => exact .complete n hplace
  | none => rfl

theorem lengthAt_agrees (kind : Sized) (bs : Bytes) {place : Nat} (hplace : place ≤ bs.length) :
    Agrees bs (lengthAt kind bs place) (readLength kind (bs.drop place)) := by
  refine (integerAt_agrees bs hplace).andThen fun n place hplace => ?_
  split_ifs
  · exact .complete none hplace
  · rfl
  · rfl
  · exact .complete _ hplace

/-! ### Payloads -/

theorem payloadAt_agrees (bs : Bytes) (length : Nat) {place : Nat} (hplace : place ≤ bs.length) :
    Agrees bs (payloadAt bs length place) (readPayload length (bs.drop place)) := by
  have hbehind : (bs.drop (place + length)).length = bs.length - (place + length) :=
    List.length_drop
  rw [payloadAt, difference_eq hplace, readPayload, List.drop_drop]
  simp only [bind, Except.bind]
  split_ifs with hfew
  · -- fewer than two bytes stand behind the payload
    split
    case h_1 rest hrest =>
        rw [hrest, List.length_cons, List.length_cons] at hbehind
        omega
    case h_2 rest _ hrest =>
        rw [hrest, List.length_cons, List.length_cons] at hbehind
        omega
    case h_3 => rfl
  · have hdata : slice bs place (place + length) = .ok ((bs.drop place).take length) := by
      rw [slice_eq (Nat.le_add_right _ _) (by omega), List.take_drop]
    have hending : slice bs (place + length) (place + length + 2) =
        .ok ((bs.drop (place + length)).take 2) := by
      rw [slice_eq (Nat.le_add_right _ _) (by omega), List.take_drop]
    simp only [hdata, hending]
    cases hrest : bs.drop (place + length) with
    | nil =>
        rw [hrest, List.length_nil] at hbehind
        omega
    | cons a rest =>
        cases rest with
        | nil =>
            rw [hrest, List.length_singleton] at hbehind
            omega
        | cons b rest =>
            by_cases hcrlf : [a, b] = Bytes.crlf
            · cases hcrlf
              refine ⟨place + (length + 2), rfl, by omega, ?_⟩
              rw [← Nat.add_assoc, ← List.drop_drop, hrest]
              rfl
            · have hfound : (a :: b :: rest).take 2 ≠ Bytes.crlf := hcrlf
              rw [if_pos hfound]
              split
              case h_1 heq =>
                  cases heq
                  exact absurd rfl hcrlf
              case h_2 => rfl
              case h_3 hshort => exact absurd rfl (hshort a b rest)

/-! ### Values -/

theorem bulkAt_agrees (bs : Bytes) {place : Nat} (hplace : place ≤ bs.length) :
    Agrees bs (bulkAt bs place) (readBulk (bs.drop place)) := by
  refine (lengthAt_agrees .bulk bs hplace).andThen fun length place hplace => ?_
  cases length with
  | none => exact .complete _ hplace
  | some length => exact (payloadAt_agrees bs length hplace).map _

theorem itemsAt_agrees {bs : Bytes} {itemAt : Nat → Except Fault (Found Value)}
    {readItem : Bytes → Reading Value}
    (hItem : ∀ place, place ≤ bs.length → Agrees bs (itemAt place) (readItem (bs.drop place)))
    (n : Nat) (items : List Value) {place : Nat} (hplace : place ≤ bs.length) :
    Agrees bs (itemsAt itemAt n items place) (readItems readItem n items (bs.drop place)) := by
  induction n generalizing items place with
  | zero => exact .complete _ hplace
  | succ n ih => exact (hItem place hplace).andThen fun item _ => ih (item :: items)

theorem arrayAt_agrees {bs : Bytes} {itemAt : Nat → Except Fault (Found Value)}
    {readItem : Bytes → Reading Value}
    (hItem : ∀ place, place ≤ bs.length → Agrees bs (itemAt place) (readItem (bs.drop place)))
    {place : Nat} (hplace : place ≤ bs.length) :
    Agrees bs (arrayAt itemAt bs place) (readArray readItem (bs.drop place)) := by
  refine (lengthAt_agrees .array bs hplace).andThen fun length place hplace => ?_
  cases length with
  | none => exact .complete _ hplace
  | some length => exact (itemsAt_agrees hItem length [] hplace).map _

/-- At a place there is a byte, and behind it the rest, or there is none. -/
theorem drop_cases (bs : Bytes) (place : Nat) :
    (bs[place]? = none ∧ bs.drop place = []) ∨
      ∃ b, bs[place]? = some b ∧ bs.drop place = b :: bs.drop (place + 1) ∧
        place + 1 ≤ bs.length := by
  by_cases hplace : place < bs.length
  · exact .inr ⟨bs[place], List.getElem?_eq_getElem hplace, List.drop_eq_getElem_cons hplace, hplace⟩
  · have hbehind := Nat.le_of_not_lt hplace
    exact .inl ⟨List.getElem?_eq_none hbehind, List.drop_eq_nil_of_le hbehind⟩

/-- Inside `depth` arrays there is room for the others, and an item is entered one deeper. -/
theorem valueAt_agrees (bs : Bytes) {depth room : Nat} (hroom : depth + room = maxDepth)
    (place : Nat) : Agrees bs (valueAt bs depth place) (readValue room (bs.drop place)) := by
  induction room using Nat.strongRecOn generalizing depth place with
  | ind room ih =>
      have hdepth : ¬32 < depth := Nat.not_lt_of_le (Nat.le.intro hroom)
      rw [valueAt, if_neg hdepth]
      rcases drop_cases bs place with ⟨hnone, hdrop⟩ | ⟨b, hsome, hdrop, hplace⟩
      · rw [hnone, hdrop, readValue.eq_1]
        rfl
      · rw [hsome, hdrop]
        unfold readValue
        dsimp only
        cases hb : Marker.ofByte? b with
        | none => rfl
        | some m =>
            cases m with
            | simple => exact (textAt_agrees bs hplace).map _
            | error => exact (textAt_agrees bs hplace).map _
            | integer => exact (integerAt_agrees bs hplace).map _
            | bulk => exact bulkAt_agrees bs hplace
            | array =>
                cases room with
                | zero =>
                    have hdeep : maxDepth ≤ depth := by omega
                    simp only [if_pos hdeep]
                    rfl
                | succ room =>
                    have hopen : ¬maxDepth ≤ depth := by omega
                    simp only [if_neg hopen]
                    refine arrayAt_agrees (fun place _ => ?_) hplace
                    exact ih room (Nat.lt_succ_self room) (by omega) place

theorem advance_eq {buffer : Bytes} {n : Nat} (h : n ≤ buffer.length) :
    advance buffer n = .ok (buffer.drop n) := if_pos h

theorem parseAt_eq (buffer : Bytes) :
    parseAt buffer = .ok (match parse buffer with
      | .complete value rest => (.ok (some value), rest)
      | .incomplete => (.ok none, buffer)
      | .malformed e => (.error e, buffer)) := by
  have hvalue : Agrees buffer (valueAt buffer 0 0) (parse buffer) :=
    valueAt_agrees buffer (Nat.zero_add maxDepth) 0
  unfold parseAt
  cases hparse : parse buffer with
  | complete value rest =>
      rw [hparse] at hvalue
      obtain ⟨place, hread, hle, rfl⟩ := hvalue
      rw [hread]
      simp only [bind, Except.bind, advance_eq hle]
  | incomplete =>
      rw [hparse] at hvalue
      have hread : valueAt buffer 0 0 = .ok .incomplete := hvalue
      rw [hread]
      rfl
  | malformed e =>
      rw [hparse] at hvalue
      have hread : valueAt buffer 0 0 = .ok (.malformed e) := hvalue
      rw [hread]
      rfl

theorem tokenAt_agrees (bs : Bytes) (depth place : Nat) :
    Agrees bs (tokenAt bs depth place) (readToken depth (bs.drop place)) := by
  rw [tokenAt]
  rcases drop_cases bs place with ⟨hnone, hdrop⟩ | ⟨b, hsome, hdrop, hplace⟩
  · rw [hnone, hdrop]
    rfl
  · rw [hsome, hdrop, readToken]
    dsimp only
    cases hb : Marker.ofByte? b with
    | none => rfl
    | some m =>
        cases m with
        | simple => exact (textAt_agrees bs hplace).map _
        | error => exact (textAt_agrees bs hplace).map _
        | integer => exact (integerAt_agrees bs hplace).map _
        | bulk =>
            refine (lengthAt_agrees .bulk bs hplace).andThen fun length place hplace => ?_
            cases length with
            | none => exact .complete _ hplace
            | some length => exact (payloadAt_agrees bs length hplace).map _
        | array =>
            simp only
            split_ifs
            · rfl
            · exact (lengthAt_agrees .array bs hplace).map _

end RespCache.Resp
