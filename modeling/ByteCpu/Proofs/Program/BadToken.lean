import ByteCpu.Proofs.Program.Grammar

/-!
Where the first bad token of a source stands. Lines count from one and offsets in bytes of UTF-8,
so the place that an error names is a span of the source that holds the token, whatever characters
stand before it.
-/

set_option autoImplicit false

namespace ByteCpu

namespace Text

theorem utf8Length_eq (cs : List Char) : utf8Length cs = (String.ofList cs).utf8ByteSize := by
  induction cs with
  | nil => rfl
  | cons c cs ih =>
    rw [String.ofList_cons, String.utf8ByteSize_append, String.utf8ByteSize_singleton, ← ih]
    rfl

/-- A span of a source that holds a text: it lies inside, from one character to another. -/
structure Spans (source : String) (offset length : Nat) (text : String) : Prop where
  inside : offset + length ≤ source.utf8ByteSize
  start : String.Pos.Raw.IsValid source ⟨offset⟩
  stop : String.Pos.Raw.IsValid source ⟨offset + length⟩
  bytes : source.toByteArray.extract offset (offset + length) = text.toByteArray

theorem spans_append (before text after : String) :
    Spans (before ++ text ++ after) before.utf8ByteSize text.utf8ByteSize text where
  inside := by
    simp only [String.utf8ByteSize_append]
    omega
  start := by
    rw [String.Pos.Raw.isValid_iff_exists_append]
    exact ⟨before, text ++ after, String.append_assoc .., rfl⟩
  stop := by
    rw [String.Pos.Raw.isValid_iff_exists_append]
    refine ⟨before ++ text, after, rfl, ?_⟩
    rw [String.Pos.Raw.ext_iff, String.byteIdx_rawEndPos, String.utf8ByteSize_append]
  bytes := by
    have front : (before.toByteArray ++ text.toByteArray).size =
        before.utf8ByteSize + text.utf8ByteSize := ByteArray.size_append
    rw [String.toByteArray_append, String.toByteArray_append, ← front,
      ByteArray.extract_append_size_left]
    exact ByteArray.extract_append_eq_right rfl front

end Text

namespace Source

def ended (ls : List (List Char)) : List Char := ls.flatMap (· ++ ['\n'])

theorem ended_cons (l : List Char) (ls : List (List Char)) :
    ended (l :: ls) = l ++ ['\n'] ++ ended ls := rfl

theorem extent_eq (ls : List (List Char)) : extent ls = Text.utf8Length (ended ls) := by
  induction ls with
  | nil => rfl
  | cons l ls ih =>
    have feed : Text.utf8Length ['\n'] = 1 := rfl
    have step : extent (l :: ls) = Text.utf8Length l + 1 + extent ls := rfl
    rw [step, ih, ended_cons, Text.utf8Length_append, Text.utf8Length_append, feed]

theorem count_ended {ls : List (List Char)} (free : ∀ l ∈ ls, '\n' ∉ l) :
    (ended ls).count '\n' = ls.length := by
  induction ls with
  | nil => rfl
  | cons l ls ih =>
    obtain ⟨here, later⟩ := List.forall_mem_cons.1 free
    have noFeed := List.count_eq_zero_of_not_mem here
    rw [ended_cons, List.count_append, List.count_append, noFeed, ih later, List.length_cons,
      List.count_singleton_self]
    omega

theorem intercalate_append (ls : List (List Char)) {rest : List (List Char)} (nonempty : rest ≠ []) :
    ['\n'].intercalate (ls ++ rest) = ended ls ++ ['\n'].intercalate rest := by
  induction ls with
  | nil => rfl
  | cons l ls ih =>
    have more : ls ++ rest ≠ [] := List.append_ne_nil_of_right_ne_nil _ nonempty
    rw [List.cons_append, List.intercalate_cons_of_ne_nil more, ih, ended_cons]
    simp only [List.append_assoc]

theorem exists_intercalate_eq (line : List Char) (rest : List (List Char)) :
    ∃ after, ['\n'].intercalate (line :: rest) = line ++ after ∧ ∀ c ∈ after.head?, c = '\n' := by
  cases rest with
  | nil => exact ⟨[], by simp, by simp⟩
  | cons l ls => exact ⟨'\n' :: ['\n'].intercalate (l :: ls), by simp, by simp⟩

theorem wellFormed_or_bad (ls : List (List Char)) :
    (∀ l ∈ ls, wellFormed l = true) ∨
      ∃ good line rest, ls = good ++ line :: rest ∧ (∀ l ∈ good, wellFormed l = true) ∧
        wellFormed line = false := by
  cases h : ls.dropWhile wellFormed with
  | nil => exact .inl (List.dropWhile_eq_nil_iff.1 h)
  | cons line rest =>
    refine .inr ⟨ls.takeWhile wellFormed, line, rest, ?_, fun l hl => List.mem_takeWhile_imp hl, ?_⟩
    · rw [← h, List.takeWhile_append_dropWhile]
    · have bad := List.head?_dropWhile_not wellFormed ls
      rwa [h] at bad

theorem parse_of_bad {source : String} {good rest : List (List Char)} {line : List Char}
    (name : String) (cut : lines source.toList = good ++ line :: rest)
    (h : ∀ l ∈ good, wellFormed l = true) (bad : wellFormed line = false) :
    parse name source = .error (.invalidByte (badToken name source good line)) := by
  have stop : ¬wellFormed line = true := by simp [bad]
  simp only [parse]
  rw [cut, List.dropWhile_append_of_pos h, List.dropWhile_cons_of_neg stop,
    List.takeWhile_append_of_pos h, List.takeWhile_cons_of_neg stop, List.append_nil]

theorem parse_of_wellFormed {source : String} (name : String)
    (h : ∀ l ∈ lines source.toList, wellFormed l = true) :
    parse name source =
      if ((lines source.toList).filterMap lineByte?).length ≤ Memory.size then
        .ok ((lines source.toList).filterMap lineByte?)
      else
        .error (.programTooLarge ((lines source.toList).filterMap lineByte?).length
          Memory.size) := by
  simp only [parse]
  rw [List.dropWhile_eq_nil_iff.2 h, List.takeWhile_eq_self_iff.2 h]

/-- The text around a bad token: lines, blanks, the token, blanks, and a comment or the end of
the line. -/
structure Around (source : String) (bad : BadToken) (earlier : List (List Char))
    (front back rest : List Char) : Prop where
  text : source.toList = ended earlier ++ front ++ bad.token.toList ++ back ++ rest
  offset : (String.ofList (ended earlier ++ front)).utf8ByteSize = bad.offset
  line : bad.line = 1 + (ended earlier ++ front).count '\n'
  blankFront : ∀ c ∈ front, Text.isBlank c = true ∧ c ≠ '\n'
  blankBack : ∀ c ∈ back, Text.isBlank c = true ∧ c ≠ '\n'
  stop : ∀ c ∈ rest.head?, c = '#' ∨ c = '\n'
  wellFormed : ∀ l ∈ earlier, '\n' ∉ l ∧ ∃ t, Reads l t ∧ (t = [] ∨ IsByte t)

structure Located (source : String) (bad : BadToken) : Prop where
  spans : Text.Spans source bad.offset bad.length bad.token
  nonempty : bad.token.toList ≠ []
  uncommented : '#' ∉ bad.token.toList
  oneLine : '\n' ∉ bad.token.toList
  tight : Text.Tight bad.token.toList
  noByte : ¬IsByte bad.token.toList
  around : ∃ earlier front back rest, Around source bad earlier front back rest

namespace Around

variable {source : String} {bad : BadToken} {earlier : List (List Char)}
  {front back rest : List Char}

theorem source_eq (h : Around source bad earlier front back rest) :
    source =
      String.ofList (ended earlier ++ front) ++ bad.token ++ String.ofList (back ++ rest) := by
  rw [← String.toList_inj, h.text]
  simp

theorem spans (h : Around source bad earlier front back rest) :
    Text.Spans source bad.offset bad.token.utf8ByteSize bad.token := by
  rw [h.source_eq, ← h.offset]
  exact Text.spans_append _ _ _

end Around

theorem badToken_around {source : String} {good rest : List (List Char)} {line : List Char}
    (name : String) (cut : lines source.toList = good ++ line :: rest)
    (h : ∀ l ∈ good, wellFormed l = true) :
    ∃ back after, Around source (badToken name source good line) good (indent line) back after := by
  obtain ⟨-, free, text⟩ := lines_eq_iff.1 cut
  obtain ⟨feedless, lineFree⟩ := List.forall_mem_append.1 free
  have noFeed := (List.forall_mem_cons.1 lineFree).1
  obtain ⟨after, whole, feed⟩ := exists_intercalate_eq line rest
  obtain ⟨back, comment, parts, blank, sign⟩ := exists_parts line
  rw [parts] at noFeed
  simp only [List.mem_append, not_or] at noFeed
  obtain ⟨⟨⟨noFeedFront, -⟩, noFeedBack⟩, -⟩ := noFeed
  refine ⟨back, comment ++ after, ?_⟩
  constructor
  · rw [text, intercalate_append good (List.cons_ne_nil line rest), whole]
    conv => lhs; rw [parts]
    simp [badToken]
  · rw [← Text.utf8Length_eq, Text.utf8Length_append, ← extent_eq]
    rfl
  · rw [List.count_append, count_ended feedless, List.count_eq_zero_of_not_mem noFeedFront]
    exact Nat.add_comm _ _
  · exact fun c hc => ⟨isBlank_of_mem_indent line c hc, fun e => noFeedFront (e ▸ hc)⟩
  · exact fun c hc => ⟨blank c hc, fun e => noFeedBack (e ▸ hc)⟩
  · intro c hc
    rw [List.head?_append] at hc
    cases hk : comment.head? with
    | none =>
      rw [hk] at hc
      exact .inr (feed c hc)
    | some d =>
      rw [hk] at hc
      cases hc
      exact .inl (sign c hk)
  · exact fun l hl => ⟨feedless l hl, token l, reads_iff.2 rfl, wellFormed_iff.1 (h l hl)⟩

theorem not_isByte_of_not_wellFormed {line : List Char} (h : wellFormed line = false) :
    token line ≠ [] ∧ ¬IsByte (token line) := by
  rw [← not_or, ← wellFormed_iff, h]
  exact Bool.false_ne_true

/-- What is reported of a bad token is where it stands in the source. -/
theorem reported_badToken_is_located {name source : String} {bad : BadToken}
    (h : parse name source = .error (.invalidByte bad)) :
    bad.sourceName = name ∧ bad.source = source ∧ Located source bad := by
  obtain all | ⟨good, line, rest, cut, allBefore, illFormed⟩ :=
    wellFormed_or_bad (lines source.toList)
  · rw [parse_of_wellFormed name all] at h
    split at h <;> cases h
  rw [parse_of_bad name cut allBefore illFormed] at h
  cases h
  obtain ⟨back, after, around⟩ := badToken_around name cut allBefore
  obtain ⟨nonempty, noByte⟩ := not_isByte_of_not_wellFormed illFormed
  have noFeed : '\n' ∉ line := by
    refine (lines_eq_iff.1 cut).2.1 line ?_
    simp
  have content : (badToken name source good line).token.toList = token line := String.toList_ofList
  refine ⟨rfl, rfl, ?_, ?_, ?_, ?_, ?_, ?_, _, _, _, _, around⟩
  · have length : (badToken name source good line).length =
        (badToken name source good line).token.utf8ByteSize := Text.utf8Length_eq _
    rw [length]
    exact around.spans
  all_goals rw [content]
  · exact nonempty
  · exact bare_token line
  · exact fun h => noFeed (mem_of_mem_token h)
  · exact Text.tight_trim _
  · exact noByte

theorem wideText_badToken_is_located :
    let source := "1 # é\r\n\u00a0\u2003 10201\t#bad"
    let bad : BadToken := ⟨2, "10201", "wide", source, 14, 5⟩
    parse "wide" source = .error (.invalidByte bad) ∧
      bad.sourceName = "wide" ∧ bad.source = source ∧ Located source bad := by
  intro source bad
  have h : parse "wide" source = .error (.invalidByte bad) := by decide +kernel
  exact ⟨h, reported_badToken_is_located h⟩

end Source
end ByteCpu
