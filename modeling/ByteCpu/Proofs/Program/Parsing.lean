import ByteCpu.Proofs.Program.BadToken

/-!
Parsing accepts the texts of the grammar that have at most as many tokens as memory has cells. Any
other text is refused for its first bad token, or else for its number of tokens.
-/

set_option autoImplicit false

namespace ByteCpu.Source

theorem tokens_append (ls ks : List (List Char)) : tokens (ls ++ ks) = tokens ls ++ tokens ks := by
  simp [tokens]

theorem tokens_cons (l : List Char) (ls : List (List Char)) :
    tokens (l :: ls) = if token l = [] then tokens ls else token l :: tokens ls := by
  simp only [tokens, List.map_cons, List.filter_cons]
  by_cases h : token l = [] <;> simp [h]

theorem isByte_tokens_iff {ls : List (List Char)} :
    (∀ t ∈ tokens ls, IsByte t) ↔ ∀ l ∈ ls, wellFormed l = true := by
  induction ls with
  | nil => simp [tokens]
  | cons l ls ih =>
    rw [tokens_cons, List.forall_mem_cons, wellFormed_iff, ← ih]
    by_cases h : token l = []
    · simp [h]
    · rw [if_neg h, List.forall_mem_cons]
      simp [h]

theorem denotes_bytes {ls : List (List Char)} (h : ∀ l ∈ ls, wellFormed l = true) :
    List.Forall₂ Denotes (tokens ls) (ls.filterMap lineByte?) := by
  induction ls with
  | nil => exact .nil
  | cons l ls ih =>
    obtain ⟨here, later⟩ := List.forall_mem_cons.1 h
    rw [tokens_cons]
    split
    next blank =>
      rw [List.filterMap_cons_none (lineByte?_of_token_eq_nil blank)]
      exact ih later
    next nonempty =>
      obtain ⟨b, denotes⟩ := (wellFormed_iff.1 here).resolve_left nonempty
      rw [List.filterMap_cons_some (lineByte?_eq_some_iff.2 denotes)]
      exact .cons denotes (ih later)

theorem denotes_rightUnique : Relator.RightUnique Denotes :=
  fun _ _ _ hb hc => UInt8.toNat_inj.1 (hb.2.2.symm.trans hc.2.2)

theorem isByte_of_denotes {ts : List (List Char)} {bytes : List UInt8}
    (h : List.Forall₂ Denotes ts bytes) : ∀ t ∈ ts, IsByte t := by
  have each := h.imp fun t b denotes => (⟨⟨b, denotes⟩, denotes⟩ : IsByte t ∧ Denotes t b)
  exact ((List.forall₂_and_left _ _).1 each).1

theorem first_unique {α : Type} {P : α → Prop} {as as' bs bs' : List α} {a b : α}
    (same : as ++ a :: as' = bs ++ b :: bs') (ha : ∀ x ∈ as, P x) (na : ¬P a)
    (hb : ∀ x ∈ bs, P x) (nb : ¬P b) : as = bs ∧ a = b := by
  classical
  have before {xs xs' : List α} {x : α} (h : ∀ y ∈ xs, P y) (nx : ¬P x) :
      (xs ++ x :: xs').takeWhile (fun y => decide (P y)) = xs := by
    rw [List.takeWhile_append_of_pos fun y hy => decide_eq_true (h y hy),
      List.takeWhile_cons_of_neg (by simpa using nx), List.append_nil]
  have h : as = bs := by rw [← before ha na, same, before hb nb]
  subst h
  exact ⟨rfl, (List.cons.inj (List.append_cancel_left same)).1⟩

theorem Around.tokens {source : String} {bad : BadToken} {earlier : List (List Char)}
    {front back rest : List Char} (h : Around source bad earlier front back rest) :
    Tokens (String.ofList (ended earlier ++ front)) (tokens earlier) := by
  have cut : lines (ended earlier ++ front) = earlier ++ [front] := by
    refine lines_eq_iff.2 ⟨by simp, ?_, ?_⟩
    · intro l hl
      rcases List.mem_append.1 hl with before | here
      · exact (h.wellFormed l before).1
      · rw [List.mem_singleton.1 here]
        exact fun feed => (h.blankFront _ feed).2 rfl
    · rw [intercalate_append earlier (List.cons_ne_nil front []), List.intercalate_singleton]
  have blank : token front = [] := by
    have reads : Reads (front ++ [] ++ [] ++ []) [] :=
      .line (fun c hc => (h.blankFront c hc).1) (by simp) (by simp [Text.Tight]) (by simp) (by simp)
    simpa using reads_iff.1 reads
  rw [tokens_iff, String.toList_ofList, cut, tokens_append, tokens_cons, if_pos blank]
  exact List.append_nil _

/-- How a text with these tokens is parsed: to the bytes that they denote, where they all denote
one and there are not too many. The first bad token is reported before their number is. -/
structure Parsed (name source : String) (ts : List (List Char)) : Prop where
  accepted : ∀ bytes, parse name source = .ok bytes ↔
    List.Forall₂ Denotes ts bytes ∧ ts.length ≤ 256
  badToken : ∀ good t rest, ts = good ++ t :: rest → (∀ u ∈ good, IsByte u) → ¬IsByte t →
    ∃ bad before after, parse name source = .error (.invalidByte bad) ∧
      source = before ++ String.ofList t ++ after ∧ Tokens before good ∧
      bad.token = String.ofList t ∧ bad.offset = before.utf8ByteSize
  tooLarge : (∀ t ∈ ts, IsByte t) → 256 < ts.length →
    parse name source = .error (.programTooLarge ts.length 256)

theorem parsed_of_wellFormed {source : String} (name : String)
    (h : ∀ l ∈ lines source.toList, wellFormed l = true) :
    Parsed name source (tokens (lines source.toList)) := by
  have denotes := denotes_bytes h
  have parses := parse_of_wellFormed name h
  generalize (lines source.toList).filterMap lineByte? = values at denotes parses
  have count : Memory.size = 256 := rfl
  rw [count, ← denotes.length_eq] at parses
  constructor
  · intro bytes
    rw [parses]
    constructor
    · intro ok
      split at ok
      next fits =>
        cases ok
        exact ⟨denotes, fits⟩
      next => cases ok
    · rintro ⟨others, fits⟩
      have same := denotes_rightUnique.forall₂ denotes others
      rw [if_pos fits, same]
  · rintro good t rest cut - bad
    refine absurd (isByte_tokens_iff.2 h t ?_) bad
    simp [cut]
  · intro _ many
    rw [parses, if_neg (Nat.not_le.2 many)]

theorem parsed_of_bad {source : String} {good rest : List (List Char)} {line : List Char}
    (name : String) (cut : lines source.toList = good ++ line :: rest)
    (h : ∀ l ∈ good, wellFormed l = true) (bad : wellFormed line = false) :
    Parsed name source (tokens (lines source.toList)) := by
  have parses := parse_of_bad name cut h bad
  obtain ⟨back, after, around⟩ := badToken_around name cut h
  obtain ⟨nonempty, noByte⟩ := not_isByte_of_not_wellFormed bad
  have split : tokens (lines source.toList) = tokens good ++ token line :: tokens rest := by
    rw [cut, tokens_append, tokens_cons, if_neg nonempty]
  have someBad : ¬∀ t ∈ tokens (lines source.toList), IsByte t := by
    intro all
    exact noByte (all (token line) (by simp [split]))
  constructor
  · intro bytes
    rw [parses]
    constructor
    · intro ok
      cases ok
    · rintro ⟨denotes, -⟩
      exact absurd (isByte_of_denotes denotes) someBad
  -- A first bad token in whatever cut of the tokens is that of the first bad line.
  · intro before t others first allBefore noByteT
    obtain ⟨rfl, rfl⟩ := first_unique (split.symm.trans first) (isByte_tokens_iff.2 h) noByte
      allBefore noByteT
    exact ⟨_, _, _, parses, around.source_eq, around.tokens, rfl, around.offset.symm⟩
  · exact fun all => absurd all someBad

/-- Every text has tokens, and is parsed as they say. -/
theorem parse_follows_grammar (name source : String) :
    (∃ ts, Tokens source ts) ∧ ∀ ts, Tokens source ts → Parsed name source ts := by
  refine ⟨⟨_, tokens_iff.2 rfl⟩, fun ts h => ?_⟩
  rw [← tokens_iff.1 h]
  obtain all | ⟨good, line, rest, cut, allBefore, illFormed⟩ :=
    wellFormed_or_bad (lines source.toList)
  · exact parsed_of_wellFormed name all
  · exact parsed_of_bad name cut allBefore illFormed

theorem signedText_follows_grammar :
    let source := "\u00a00000000101\r\n+1 # one\n"
    Tokens source ["0000000101".toList, "+1".toList] ∧ IsByte "0000000101".toList ∧
      ¬IsByte "+1".toList ∧
      ∃ bad before after, parse "signed" source = .error (.invalidByte bad) ∧
        source = before ++ "+1" ++ after ∧ Tokens before ["0000000101".toList] ∧
        bad.token = "+1" ∧ bad.offset = before.utf8ByteSize := by
  intro source
  have ts : Tokens source ["0000000101".toList, "+1".toList] := tokens_iff.2 (by decide +kernel)
  have byte : IsByte "0000000101".toList := ⟨5, by decide, by simp, by decide⟩
  have noByte : ¬IsByte "+1".toList := by
    rintro ⟨b, -, digits, -⟩
    exact absurd (digits '+' (by decide)) (by decide)
  have parsed := (parse_follows_grammar "signed" source).2 _ ts
  exact ⟨ts, byte, noByte, parsed.badToken [_] _ [] rfl (by simpa using byte) noByte⟩

end ByteCpu.Source
