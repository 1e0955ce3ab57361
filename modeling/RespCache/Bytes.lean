/-!
Byte strings, and the lines in them. A line ends at the first CR LF, so a body may hold a lone CR or
a lone LF; `Bytes.splitLine` finds that place, and `eq_append_of_splitLine` says that nothing but
the CR LF is lost.
-/

namespace RespCache

/-- A byte string; the wire, the keys and the values are all of this type. -/
abbrev Bytes := List UInt8

namespace Bytes

def crlf : Bytes := [13, 10]

/-- Looks for the first CR LF; `seen` holds the bytes passed so far, last first. -/
def splitLineFrom (seen : Bytes) : Bytes → Option (Bytes × Bytes)
  | [] => none
  | 13 :: 10 :: rest => some (seen.reverse, rest)
  | b :: rest => splitLineFrom (b :: seen) rest

/-- The body of the first line and the bytes after its CR LF; nothing if no line is complete. -/
def splitLine (bs : Bytes) : Option (Bytes × Bytes) := splitLineFrom [] bs

theorem eq_append_of_splitLineFrom {seen bs line rest : Bytes}
    (h : splitLineFrom seen bs = some (line, rest)) :
    seen.reverse ++ bs = line ++ (crlf ++ rest) := by
  fun_induction splitLineFrom seen bs with
  | case1 => cases h
  | case2 seen rest' =>
    cases h
    simp [crlf]
  | case3 seen b rest' _ ih =>
    have := ih h
    simpa using this

/-- A line, its CR LF and the rest make up the whole. -/
theorem eq_append_of_splitLine {bs line rest : Bytes} (h : splitLine bs = some (line, rest)) :
    bs = line ++ (crlf ++ rest) := by
  simpa using eq_append_of_splitLineFrom h

theorem length_lt_of_splitLine {bs line rest : Bytes} (h : splitLine bs = some (line, rest)) :
    rest.length < bs.length := by
  rw [eq_append_of_splitLine h]
  simp [crlf]
  omega

end Bytes

end RespCache
