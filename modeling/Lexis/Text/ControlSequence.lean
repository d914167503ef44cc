/-!
# Control sequences

A control sequence is an escape character and an opening bracket, then parameters from `0` to `?`,
then intermediates from the blank to `/`, then one final character from `@` to `~`. Terminals obey
control sequences; a text without them can be written anywhere.
-/

namespace Lexis.Text

/-- What stands after the control sequence that began before `cs`, if it is completed there. -/
def afterControl? (cs : List Char) : Option (List Char) :=
  match (cs.dropWhile fun c ↦ '0' ≤ c && c ≤ '?').dropWhile fun c ↦ ' ' ≤ c && c ≤ '/' with
  | c :: rest => if '@' ≤ c && c ≤ '~' then some rest else none
  | [] => none

-- Dropping a run of characters gains none.
private theorem length_dropWhile_le (p : Char → Bool) (cs : List Char) :
    (cs.dropWhile p).length ≤ cs.length :=
  (List.dropWhile_suffix p).length_le

/-- A control sequence takes at least its final character. -/
theorem length_lt_of_afterControl? {cs rest : List Char} (h : afterControl? cs = some rest) :
    rest.length < cs.length := by
  unfold afterControl? at h
  split at h
  · next c rest' hd =>
    split at h
    · simp only [Option.some.injEq] at h
      subst h
      have hl := congrArg List.length hd
      have h1 := length_dropWhile_le (fun c ↦ ' ' ≤ c && c ≤ '/')
        (cs.dropWhile fun c ↦ '0' ≤ c && c ≤ '?')
      have h2 := length_dropWhile_le (fun c ↦ '0' ≤ c && c ≤ '?') cs
      simp only [List.length_cons] at hl
      omega
    · exact absurd h (by simp)
  · exact absurd h (by simp)

/-- A text without its control sequences. -/
def stripControl (cs : List Char) : List Char :=
  match cs with
  | '\x1b' :: '[' :: rest =>
    match _h : afterControl? rest with
    | some after => stripControl after
    | none => '\x1b' :: stripControl ('[' :: rest)
  | c :: rest => c :: stripControl rest
  | [] => []
termination_by cs.length
decreasing_by
  · have := length_lt_of_afterControl? _h
    simp only [List.length_cons]
    omega
  · simp
  · simp

end Lexis.Text
