import ByteCpu.Proofs.Program.Parsing

/-!
Texts put together at the end of a line. Each reads as it does alone: a bad token of the first
stays where it is, one of the second moves down by the lines and the bytes of the first, and the
bytes of both count together.
-/

set_option autoImplicit false

namespace ByteCpu.Source

theorem ended_append (ls ks : List (List Char)) : ended (ls ++ ks) = ended ls ++ ended ks :=
  List.flatMap_append

theorem extent_append (ls ks : List (List Char)) : extent (ls ++ ks) = extent ls + extent ks := by
  rw [extent_eq, extent_eq, extent_eq, ended_append, Text.utf8Length_append]

theorem exists_ended {cs : List Char} (feed : ∀ c ∈ cs.getLast?, c = '\n') :
    ∃ ls, (∀ l ∈ ls, '\n' ∉ l) ∧ cs = ended ls := by
  obtain ⟨nonempty, free, text⟩ := lines_eq_iff.1 (rfl : lines cs = _)
  obtain none | ⟨ls, last, cut⟩ := List.eq_nil_or_concat (lines cs)
  · exact absurd none nonempty
  rw [List.concat_eq_append] at cut
  rw [cut] at free text
  obtain ⟨feedless, lastFree⟩ := List.forall_mem_append.1 free
  rw [intercalate_append ls (List.cons_ne_nil last []), List.intercalate_singleton] at text
  obtain rfl | ⟨others, c, rfl⟩ := List.eq_nil_or_concat last
  · exact ⟨ls, feedless, by rw [text, List.append_nil]⟩
  · have ends : cs.getLast? = some c := by rw [text]; simp
    obtain rfl := feed c ends
    exact absurd (by simp) (lastFree _ (List.mem_singleton_self _))

theorem lines_ended_append {ls : List (List Char)} (free : ∀ l ∈ ls, '\n' ∉ l) (cs : List Char) :
    lines (ended ls ++ cs) = ls ++ lines cs := by
  obtain ⟨nonempty, feedless, text⟩ := lines_eq_iff.1 (rfl : lines cs = _)
  refine lines_eq_iff.2 ⟨?_, List.forall_mem_append.2 ⟨free, feedless⟩, ?_⟩
  · exact List.append_ne_nil_of_right_ne_nil ls nonempty
  · rw [intercalate_append ls nonempty, ← text]

theorem lines_ended {ls : List (List Char)} (free : ∀ l ∈ ls, '\n' ∉ l) :
    lines (ended ls) = ls ++ [[]] := by
  rw [← List.append_nil (ended ls), lines_ended_append free]
  rfl

theorem tokens_append_nil (ls : List (List Char)) : tokens (ls ++ [[]]) = tokens ls := by
  rw [tokens_append]
  exact List.append_nil _

theorem exists_bad {ls : List (List Char)} (h : ∃ t ∈ tokens ls, ¬IsByte t) :
    ∃ good line rest, ls = good ++ line :: rest ∧ (∀ l ∈ good, wellFormed l = true) ∧
      wellFormed line = false := by
  obtain all | bad := wellFormed_or_bad ls
  · obtain ⟨t, member, noByte⟩ := h
    exact absurd (isByte_tokens_iff.2 all t member) noByte
  · exact bad

theorem badToken_append (name front back : String) {ls : List (List Char)}
    (free : ∀ l ∈ ls, '\n' ∉ l) (text : front.toList = ended ls) (good : List (List Char))
    (line : List Char) :
    badToken name (front ++ back) (ls ++ good) line =
      { badToken name back good line with
        source := front ++ back
        line := (badToken name back good line).line + front.toList.count '\n'
        offset := (badToken name back good line).offset + front.utf8ByteSize } := by
  have count : front.toList.count '\n' = ls.length := by rw [text, count_ended free]
  have size : front.utf8ByteSize = extent ls := by
    rw [extent_eq, Text.utf8Length_eq, ← text, String.ofList_toList]
  simp only [badToken, count, size, extent_append, List.length_append, BadToken.mk.injEq, true_and,
    and_true]
  omega

/-- How two texts parse that are put together, when these are the tokens of each. -/
structure Joined (name s₁ s₂ : String) (ts₁ ts₂ : List (List Char)) : Prop where
  badFirst : (∃ t ∈ ts₁, ¬IsByte t) → ∃ bad, parse name s₁ = .error (.invalidByte bad) ∧
    parse name (s₁ ++ s₂) = .error (.invalidByte { bad with source := s₁ ++ s₂ })
  badSecond : (∀ t ∈ ts₁, IsByte t) → (∃ t ∈ ts₂, ¬IsByte t) →
    ∃ bad, parse name s₂ = .error (.invalidByte bad) ∧
      parse name (s₁ ++ s₂) = .error (.invalidByte { bad with
        source := s₁ ++ s₂
        line := bad.line + s₁.toList.count '\n'
        offset := bad.offset + s₁.utf8ByteSize })
  tooLarge : (∀ t ∈ ts₁, IsByte t) → (∀ t ∈ ts₂, IsByte t) → 256 < ts₁.length + ts₂.length →
    parse name (s₁ ++ s₂) = .error (.programTooLarge (ts₁.length + ts₂.length) 256)
  accepted : (∀ t ∈ ts₁, IsByte t) → (∀ t ∈ ts₂, IsByte t) → ts₁.length + ts₂.length ≤ 256 →
    ∃ p₁ p₂, parse name s₁ = .ok p₁ ∧ parse name s₂ = .ok p₂ ∧
      parse name (s₁ ++ s₂) = .ok (p₁ ++ p₂)

theorem parse_of_isByte {source : String} (name : String) {ts : List (List Char)}
    (tokens : Tokens source ts) (h : ∀ t ∈ ts, IsByte t) :
    ∃ p, List.Forall₂ Denotes ts p ∧ (p.length ≤ 256 → parse name source = .ok p) ∧
      (256 < p.length → parse name source = .error (.programTooLarge p.length 256)) := by
  rw [← tokens_iff.1 tokens] at h ⊢
  have all := isByte_tokens_iff.1 h
  have parses := parse_of_wellFormed name all
  have count : Memory.size = 256 := rfl
  rw [count] at parses
  refine ⟨_, denotes_bytes all, fun fits => ?_, fun many => ?_⟩
  · rw [parses, if_pos fits]
  · rw [parses, if_neg (Nat.not_le.2 many)]

theorem tokens_ended_append {s₁ s₂ : String} {ls ts₁ ts₂ : List (List Char)}
    (free : ∀ l ∈ ls, '\n' ∉ l) (text : s₁.toList = ended ls) (first : Tokens s₁ ts₁)
    (second : Tokens s₂ ts₂) : Tokens (s₁ ++ s₂) (ts₁ ++ ts₂) := by
  rw [tokens_iff] at first second ⊢
  rw [text, lines_ended free, tokens_append_nil] at first
  rw [String.toList_append, text, lines_ended_append free, tokens_append, first, second]

/-- A text that goes on behind the end of a line parses as its parts do. -/
theorem parse_append_follows_parts (name : String) {s₁ s₂ : String} {ts₁ ts₂ : List (List Char)}
    (ends : s₁ = "" ∨ ∃ text, s₁ = text ++ "\n") (first : Tokens s₁ ts₁) (second : Tokens s₂ ts₂) :
    Joined name s₁ s₂ ts₁ ts₂ := by
  have feed : ∀ c ∈ s₁.toList.getLast?, c = '\n' := by
    obtain rfl | ⟨text, rfl⟩ := ends <;> simp
  obtain ⟨ls, free, text⟩ := exists_ended feed
  have whole := tokens_ended_append free text first second
  have lines₁ : lines s₁.toList = ls ++ [[]] := by rw [text, lines_ended free]
  have linesWhole : lines (s₁ ++ s₂).toList = ls ++ lines s₂.toList := by
    rw [String.toList_append, text, lines_ended_append free]
  constructor
  · intro bad
    rw [← tokens_iff.1 first, lines₁, tokens_append_nil] at bad
    obtain ⟨good, line, rest, rfl, allBefore, illFormed⟩ := exists_bad bad
    rw [List.append_assoc, List.cons_append] at lines₁ linesWhole
    exact ⟨_, parse_of_bad name lines₁ allBefore illFormed,
      parse_of_bad name linesWhole allBefore illFormed⟩
  · intro good₁ bad
    rw [← tokens_iff.1 first, lines₁, tokens_append_nil] at good₁
    rw [← tokens_iff.1 second] at bad
    obtain ⟨good, line, rest, cut, allBefore, illFormed⟩ := exists_bad bad
    have allGood := List.forall_mem_append.2 ⟨isByte_tokens_iff.1 good₁, allBefore⟩
    rw [cut, ← List.append_assoc] at linesWhole
    rw [parse_of_bad name linesWhole allGood illFormed, badToken_append name s₁ s₂ free text]
    exact ⟨_, parse_of_bad name cut allBefore illFormed, rfl⟩
  · intro good₁ good₂ many
    obtain ⟨p, denotes, -, refused⟩ :=
      parse_of_isByte name whole (List.forall_mem_append.2 ⟨good₁, good₂⟩)
    have count := denotes.length_eq
    rw [List.length_append] at count
    rw [count]
    exact refused (by omega)
  · intro good₁ good₂ fits
    obtain ⟨p₁, denotes₁, accepted₁, -⟩ := parse_of_isByte name first good₁
    obtain ⟨p₂, denotes₂, accepted₂, -⟩ := parse_of_isByte name second good₂
    obtain ⟨p, denotes, accepted, -⟩ :=
      parse_of_isByte name whole (List.forall_mem_append.2 ⟨good₁, good₂⟩)
    have count₁ := denotes₁.length_eq
    have count₂ := denotes₂.length_eq
    have same : p = p₁ ++ p₂ :=
      denotes_rightUnique.forall₂ denotes (List.rel_append denotes₁ denotes₂)
    subst same
    rw [List.length_append] at accepted
    exact ⟨p₁, p₂, accepted₁ (by omega), accepted₂ (by omega), accepted (by omega)⟩

def ones (n : Nat) : String := String.ofList (ended (List.replicate n ['1']))

theorem tokens_ones (n : Nat) : Tokens (ones n) (List.replicate n ['1']) := by
  have free : ∀ l ∈ List.replicate n ['1'], '\n' ∉ l := by simp +contextual
  have token : token ['1'] = ['1'] := by decide
  rw [tokens_iff, ones, String.toList_ofList, lines_ended free, tokens_append_nil]
  simp [tokens, token]

theorem ones_follow_parts :
    let front := "1 # é\r\n"
    let back := "0\n\t12"
    (∃ text, front = text ++ "\n") ∧ Tokens front ["1".toList] ∧
      Tokens back ["0".toList, "12".toList] ∧
      parse "joined" back = .error (.invalidByte ⟨2, "12", "joined", back, 3, 2⟩) ∧
      parse "joined" (front ++ back) =
        .error (.invalidByte ⟨3, "12", "joined", front ++ back, 11, 2⟩) ∧
      parse "joined" (front ++ ones 256) = .error (.programTooLarge 257 256) := by
  intro front back
  have ends : ∃ text, front = text ++ "\n" := ⟨"1 # é\r", by decide⟩
  have first : Tokens front ["1".toList] := tokens_iff.2 (by decide +kernel)
  have second : Tokens back ["0".toList, "12".toList] := tokens_iff.2 (by decide +kernel)
  have one : IsByte "1".toList := ⟨1, by decide, by simp, by decide⟩
  have good : ∀ t ∈ ["1".toList], IsByte t := by simpa using one
  have twelve : ¬IsByte "12".toList := by
    rintro ⟨b, -, digits, -⟩
    exact absurd (digits '2' (by decide)) (by decide)
  have many : ∀ t ∈ List.replicate 256 ['1'], IsByte t := by
    intro t h
    rw [List.eq_of_mem_replicate h]
    exact one
  have refused : parse "joined" back = .error (.invalidByte ⟨2, "12", "joined", back, 3, 2⟩) := by
    decide +kernel
  have joined := parse_append_follows_parts "joined" (.inr ends) first second
  obtain ⟨bad, alone, together⟩ := joined.badSecond good ⟨_, by simp, twelve⟩
  have feeds : front.toList.count '\n' = 1 := by decide +kernel
  have size : front.utf8ByteSize = 8 := by decide +kernel
  rw [refused] at alone
  cases alone
  rw [feeds, size] at together
  have large := parse_append_follows_parts "joined" (.inr ends) first (tokens_ones 256)
  have tooMany := large.tooLarge good many
  rw [List.length_replicate] at tooMany
  exact ⟨ends, first, second, refused, together, tooMany (by decide)⟩

end ByteCpu.Source
