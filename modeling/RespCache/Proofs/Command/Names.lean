import RespCache.Proofs.Command.Interpreter
import RespCache.Proofs.Text.Lossy
import RespCache.Proofs.Text.Uppercase

/-!
The bytes that are read as the name of a command. Besides the letters of the name, in either case,
these are the wide letters whose upper case is part of it, and nothing else (`nameOf_eq_iff_spells`):
bytes that are no text leave a mark that no name has, and all others are kept. A value with another
name is answered by an error and leaves the cache as it is.
-/

namespace RespCache.Command

open Resp Text

def names : List String :=
  ["PING", "ECHO", "GET", "SET", "EXISTS", "DBSIZE", "FLUSHDB", "FLUSHALL", "INFO", "COMMAND"]

/-- Bytes that spell a name, from letters in either case. -/
def CaseVariant : Bytes → List Char → Prop :=
  List.Forall₂ fun b c => b.toNat = c.toNat ∨ b.toNat = c.toNat + 0x20

/-- Bytes that spell a name, from letters in either case and from wide letters. -/
inductive Spells : Bytes → List Char → Prop where
  | nil : Spells [] []
  | letter {b : UInt8} {c : Char} {bs : Bytes} {name : List Char} :
      Capital c → (b.toNat = c.toNat ∨ b.toNat = c.toNat + 0x20) → Spells bs name →
        Spells (b :: bs) (c :: name)
  | wide {c : Char} {cs : List Char} {bs : Bytes} {name : List Char} :
      (c, cs) ∈ wideLetters → Spells bs name → Spells (String.utf8EncodeChar c ++ bs) (cs ++ name)

/-- Characters that become capital letters are bytes that spell these. -/
theorem spells_flatMap {cs : List Char} (h : ∀ c ∈ cs, Capitals (upperChar c)) :
    Spells (cs.flatMap String.utf8EncodeChar) (cs.flatMap upperChar) := by
  induction cs with
  | nil => exact .nil
  | cons c cs ih =>
      have hcs := ih fun c hc => h c (List.mem_cons_of_mem _ hc)
      rw [List.flatMap_cons, List.flatMap_cons]
      rcases upperChar_of_capitals (h c List.mem_cons_self) with ⟨d, hd, hupper, hcase⟩ | hwide
      · have hascii : c.toNat < 0x80 := by
          have hle := hd.2
          omega
        have hbyte : String.utf8EncodeChar c = [UInt8.ofNat c.toNat] := by
          rcases Utf8.utf8EncodeChar_cases c with ⟨-, hone⟩ | ⟨hmore, -⟩
          · exact hone
          · omega
        rw [hbyte, hupper]
        refine .letter hd ?_ hcs
        rwa [UInt8.toNat_ofNat', Nat.mod_eq_of_lt (by omega)]
      · exact .wide hwide hcs

/-- A wide letter is read on its own, whatever stands behind it. -/
theorem decodeFrom_wide {c : Char} {cs : List Char} (h : (c, cs) ∈ wideLetters) (done : List Char)
    (bs : Bytes) :
    Utf8.decodeFrom done none (String.utf8EncodeChar c ++ bs) =
      Utf8.decodeFrom (c :: done) none bs := by
  simp only [wideLetters, List.mem_cons, Prod.mk.injEq, List.not_mem_nil, or_false] at h
  rcases h with ⟨rfl, rfl⟩ | ⟨rfl, rfl⟩ | ⟨rfl, rfl⟩ | ⟨rfl, rfl⟩ | ⟨rfl, rfl⟩ | ⟨rfl, rfl⟩ |
    ⟨rfl, rfl⟩ | ⟨rfl, rfl⟩ | ⟨rfl, rfl⟩ | ⟨rfl, rfl⟩ <;> rfl

/-- Bytes that spell a name are read as characters that become its letters. -/
theorem Spells.decodeFrom {bs : Bytes} {name : List Char} (h : Spells bs name) (done : List Char) :
    ∃ cs, Utf8.decodeFrom done none bs = done.reverse ++ cs ∧ cs.flatMap upperChar = name := by
  induction h generalizing done with
  | nil => exact ⟨[], by rw [Utf8.decodeFrom, List.append_nil], rfl⟩
  | @letter b c bs name hc hcase _ ih =>
      have hle := hc.2
      have hone : b < 0x80 := show b.toNat < 0x80 by omega
      have hstart : Utf8.start b = ([Char.ofNat b.toNat], none) := if_pos hone
      obtain ⟨cs, hcs, hupper⟩ := ih (Char.ofNat b.toNat :: done)
      refine ⟨Char.ofNat b.toNat :: cs, ?_, ?_⟩
      · rw [Utf8.decodeFrom_none_cons, hstart]
        simpa using hcs
      · rw [List.flatMap_cons, hupper, upperChar_letter hc hcase]
        rfl
  | @wide c cs bs name hwide _ ih =>
      obtain ⟨more, hmore, hupper⟩ := ih (c :: done)
      refine ⟨c :: more, ?_, ?_⟩
      · rw [decodeFrom_wide hwide, hmore, List.reverse_cons, List.append_assoc,
          List.singleton_append]
      · rw [List.flatMap_cons, hupper, upperChar_wide _ hwide]

/-- Exactly the bytes that spell a name are read as it. -/
theorem nameOf_eq_iff_spells {bs : Bytes} {name : String} (hname : Capitals name.toList) :
    nameOf bs = name ↔ Spells bs name.toList := by
  have hupper : (nameOf bs).toList = (Utf8.decodeLossy bs).toList.flatMap upperChar := by
    rw [nameOf, upper, String.toList_ofList]
  constructor
  · rintro rfl
    rw [hupper] at hname ⊢
    have hcapitals : ∀ c ∈ (Utf8.decodeLossy bs).toList, Capitals (upperChar c) :=
      fun c hc d hd => hname d (List.mem_flatMap.mpr ⟨c, hc, hd⟩)
    have hkept : Utf8.replacement ∉ (Utf8.decodeLossy bs).toList := fun hmem =>
      absurd (hcapitals _ hmem) (by decide)
    have hspells := spells_flatMap hcapitals
    rwa [← Utf8.encode_eq_flatMap, Utf8.encode_decodeLossy hkept] at hspells
  · intro hspells
    obtain ⟨cs, hcs, hletters⟩ := hspells.decodeFrom []
    have hread : (Utf8.decodeLossy bs).toList = cs := by
      rw [Utf8.decodeLossy, String.toList_ofList, hcs]
      rfl
    rw [← String.toList_inj, hupper, hread, hletters]

theorem capitals_of_mem_names : ∀ name ∈ names, Capitals name.toList := by
  decide

theorem ofName_of_not_mem {name : String} (h : name ∉ names) (args : List Value) :
    ofName name args = .error (.unknown name) := by
  simp only [names, List.mem_cons, List.not_mem_nil, or_false, not_or] at h
  obtain ⟨hping, hecho, hget, hset, hexists, hsize, hflush, hflush', hinfo, hcommand⟩ := h
  rw [ofName, if_neg hping, if_neg hecho, if_neg hget, if_neg hset, if_neg hexists, if_neg hsize,
    if_neg hflush, if_neg hflush', if_neg hinfo, if_neg hcommand]

/-- A value with the name of a command may be refused, but not as unknown. -/
theorem ofName_ne_unknown {name : String} (h : name ∈ names) (args : List Value)
    (command : String) : ofName name args ≠ .error (.unknown command) := by
  have hflush : ∀ name, ofFlush name args ≠ .error (.unknown command) := by
    intro name
    unfold ofFlush
    split <;> nofun
  simp only [names, List.mem_cons, List.not_mem_nil, or_false] at h
  rcases h with rfl | rfl | rfl | rfl | rfl | rfl | rfl | rfl | rfl | rfl
  · show ofPing args ≠ _
    unfold ofPing
    split <;> nofun
  · show ofEcho args ≠ _
    unfold ofEcho
    split <;> nofun
  · show ofGet args ≠ _
    unfold ofGet
    split <;> nofun
  · show ofSet args ≠ _
    unfold ofSet
    split <;> nofun
  · show ofExists args ≠ _
    unfold ofExists
    split <;> nofun
  · show ofSize args ≠ _
    unfold ofSize
    split <;> nofun
  · exact hflush "flushdb"
  · exact hflush "flushall"
  · nofun
  · nofun

/-- No name is read exactly if the bytes spell none. -/
theorem nameOf_not_mem_names_iff {bs : Bytes} :
    nameOf bs ∉ names ↔ ∀ name ∈ names, ¬Spells bs name.toList := by
  constructor
  · intro h name hname hspells
    apply h
    rwa [(nameOf_eq_iff_spells (capitals_of_mem_names name hname)).mpr hspells]
  · intro h hname
    apply h _ hname
    exact (nameOf_eq_iff_spells (capitals_of_mem_names _ hname)).mp rfl

/-- A command is unknown exactly if the bytes of its name spell none of the names. -/
theorem ofValue_unknown_iff {bs : Bytes} {args : List Value} :
    (∃ command, Request.ofValue (.array (.bulk bs :: args)) = .error (.unknown command)) ↔
      ∀ name ∈ names, ¬Spells bs name.toList := by
  rw [← nameOf_not_mem_names_iff]
  constructor
  · rintro ⟨command, hunknown⟩ hknown
    exact ofName_ne_unknown hknown args command hunknown
  · intro hunknown
    exact ⟨nameOf bs, ofName_of_not_mem hunknown args⟩

/-- A command is unknown exactly if the bytes of its name spell none of the names. It is then answered
by an error, and the cache stays as it is. -/
theorem unknown_iff_unspelled (c : ByteCache) (bs : Bytes) (args : List Value) :
    ((∃ command, Request.ofValue (.array (.bulk bs :: args)) = .error (.unknown command)) ↔
      ∀ name ∈ names, ¬Spells bs name.toList) ∧
    ((∀ name ∈ names, ¬Spells bs name.toList) →
      answer c (.array (.bulk bs :: args)) =
        .ok ⟨.error ("ERR unknown command '" ++ nameOf bs ++ "'"), c, []⟩) := by
  refine ⟨ofValue_unknown_iff, fun h => ?_⟩
  have hrefused : Request.ofValue (.array (.bulk bs :: args)) = .error (.unknown (nameOf bs)) :=
    ofName_of_not_mem (nameOf_not_mem_names_iff.mpr h) args
  rw [answer, hrefused]
  rfl

/-- A wide letter in front of small ones, which spell no command. -/
theorem unknown_iff_unspelled_save :
    let bs : Bytes := [0xC5, 0xBF, 0x61, 0x76, 0x65]
    let c : ByteCache := ⟨∅, .empty, 2⟩
    (∀ name ∈ names, ¬Spells bs name.toList) ∧
      answer c (.array [.bulk bs]) = .ok ⟨.error "ERR unknown command 'SAVE'", c, []⟩ := by
  intro bs c
  have hname : nameOf bs = "SAVE" := by decide
  have hunspelled : ∀ name ∈ names, ¬Spells bs name.toList := by
    apply nameOf_not_mem_names_iff.mp
    rw [hname]
    decide
  refine ⟨hunspelled, ?_⟩
  have hanswer := (unknown_iff_unspelled c bs []).2 hunspelled
  rwa [hname] at hanswer

theorem CaseVariant.lt_of_mem {bs : Bytes} {name : List Char} (h : CaseVariant bs name)
    (hname : Capitals name) : ∀ b ∈ bs, b.toNat < 0x80 := by
  induction h with
  | nil => nofun
  | @cons b c bs name hcase _ ih =>
      intro b' hb'
      rcases List.mem_cons.mp hb' with rfl | hb'
      · have hle := (hname c List.mem_cons_self).2
        omega
      · exact ih (fun d hd => hname d (List.mem_cons_of_mem _ hd)) b' hb'

/-- With a long s in front a write is carried out, although the case of its letters alone would not
make it one. -/
theorem answer_set_of_long_s :
    let bs : Bytes := [0xC5, 0xBF, 0x65, 0x74]
    let c : ByteCache := ⟨∅, .empty, 2⟩
    (∀ name ∈ names, ¬CaseVariant bs name.toList) ∧
      ∃ o, answer c (.array [.bulk bs, .bulk [107], .bulk [118]]) = .ok o ∧ o.value = .ok ∧
        c.toList = [] ∧ o.cache.toList = [([107], [118])] := by
  intro bs c
  refine ⟨fun name hname hvariant => ?_, ?_⟩
  · have hlt := hvariant.lt_of_mem (capitals_of_mem_names name hname) 0xC5 List.mem_cons_self
    exact absurd hlt (by decide)
  · have hsound : c.Sound := Cache.sound_empty (by decide)
    have hname : nameOf bs = "SET" := by decide
    obtain ⟨o, hanswer, -, hreply, hplain⟩ :=
      meets_answer hsound (.array [.bulk bs, .bulk [107], .bulk [118]])
    rw [interpret, hname, Cache.plain_empty] at hreply hplain
    exact ⟨o, hanswer, hreply, rfl, congrArg PlainCache.entries hplain⟩

end RespCache.Command
