import ByteCpu.Proofs.Listing.Readback

/-!
How a line is shown, whether it comes of a program or not. The main statement is that a line is
shown unless bytes are missing that its kind needs, and what its text is.
-/

set_option autoImplicit false

namespace ByteCpu.Listing

open Text (IsNumeral)

def Kind.needed : Kind → Nat
  | .instruction .ldi => 3
  | .instruction _ | .data => 1

namespace Line

/-- The bytes are told as registers, whether there are such registers or not. -/
def AsRegisters (bytes : List UInt8) (fields : List (List Char)) : Prop :=
  List.Forall₂ (fun b field => ∃ ds, IsNumeral 10 0 b.toNat ds ∧ field = 'R' :: ds) bytes fields

/-- A line in words. Data is its first byte, a load has its second and third, and any other
instruction has all that follow the first, few or many. -/
inductive InWords : Line → List Char → Prop
  | data {a : Nat} {b : UInt8} {rest : List UInt8} {bits : List Char}
      (value : IsNumeral 2 8 b.toNat bits) :
      InWords ⟨a, b :: rest, .data⟩ (".byte 0b".toList ++ bits)
  | load {a : Nat} {first r v : UInt8} {rest : List UInt8} {register value : List Char}
      (index : IsNumeral 10 0 r.toNat register) (number : IsNumeral 10 0 v.toNat value) :
      InWords ⟨a, first :: r :: v :: rest, .instruction .ldi⟩
        ("LDI R".toList ++ register ++ ',' :: value)
  | alone {a : Nat} {op : Opcode} {first : UInt8} (other : op ≠ .ldi) :
      InWords ⟨a, [first], .instruction op⟩ op.mnemonic.toList
  | registers {a : Nat} {op : Opcode} {first b : UInt8} {rest : List UInt8}
      {fields : List (List Char)} (other : op ≠ .ldi) (named : AsRegisters (b :: rest) fields) :
      InWords ⟨a, first :: b :: rest, .instruction op⟩
        (op.mnemonic.toList ++ ' ' :: [','].intercalate fields)

/-- A line as it is shown: its address, all its bytes in a column of at least eight characters, and
what it is in words. -/
inductive Shown (l : Line) : List Char → Prop
  | columns {address : List Char} {pairs : List (List Char)} {pad text : List Char}
      (hexAddress : IsNumeral 16 2 l.address address)
      (hexBytes : List.Forall₂ (fun b pair => IsNumeral 16 2 b.toNat pair) l.bytes pairs)
      (blank : ∀ c ∈ pad, c = ' ')
      (width : ([' '].intercalate pairs ++ pad).length = max 8 ([' '].intercalate pairs).length)
      (inWords : l.InWords text) :
      Shown l (address ++ ":  ".toList ++ [' '].intercalate pairs ++ pad ++ "  ".toList ++ text)

theorem forall₂_iff_eq_map {α β : Type} {R : α → β → Prop} {f : α → β}
    (only : ∀ x y, R x y ↔ y = f x) {xs : List α} {ys : List β} :
    List.Forall₂ R xs ys ↔ ys = xs.map f := by
  induction xs generalizing ys with
  | nil => exact List.forall₂_nil_left_iff
  | cons x xs ih => simp [List.forall₂_cons_left_iff, only, ih]

theorem pairs_iff {bytes : List UInt8} {pairs : List (List Char)} :
    List.Forall₂ (fun b pair => IsNumeral 16 2 b.toNat pair) bytes pairs ↔
      pairs = bytes.map fun b => Text.digits 16 2 b.toNat := by
  refine forall₂_iff_eq_map fun b pair => ?_
  exact Text.isNumeral_iff (by decide) (by decide)

theorem toList_register (b : UInt8) : (register b).toList = 'R' :: Text.digits 10 0 b.toNat := by
  simp [register, Text.decimal]

theorem asRegisters_iff {bytes : List UInt8} {fields : List (List Char)} :
    AsRegisters bytes fields ↔ fields = bytes.map fun b => (register b).toList := by
  refine forall₂_iff_eq_map fun b field => ?_
  have numeral (ds : List Char) : IsNumeral 10 0 b.toNat ds ↔ ds = Text.digits 10 0 b.toNat :=
    Text.isNumeral_iff (by decide) (by decide)
  simp only [numeral, exists_eq_left, toList_register]

theorem text?_of_inWords {l : Line} {cs : List Char} (h : l.InWords cs) :
    l.text? = some (String.ofList cs) := by
  cases h with
  | data value =>
    rw [value.eq_digits (by decide) (by decide)]
    simp [text?, Text.binary, ← String.toList_inj]
  | load index number =>
    rw [index.eq_digits (by decide) (by decide), number.eq_digits (by decide) (by decide)]
    simp [text?, Opcode.mnemonic, Text.decimal, toList_register, ← String.toList_inj]
  | alone other => simp [text?]
  | registers other named =>
    rw [asRegisters_iff.1 named]
    simp [text?, other, String.toList_intercalate, Function.comp_def, ← String.toList_inj]

theorem inWords_of_text? {l : Line} {text : String} (h : l.text? = some text) :
    l.InWords text.toList := by
  obtain ⟨a, bytes, kind⟩ := l
  unfold text? at h
  dsimp only at h
  split at h
  next b rest =>
    obtain rfl := Option.some.inj h
    have bits : IsNumeral 2 8 b.toNat (Text.digits 2 8 b.toNat) :=
      Text.isNumeral_digits (by decide) (by decide) 8 b.toNat
    have parts : (".byte 0b" ++ Text.binary 8 b.toNat).toList =
        ".byte 0b".toList ++ Text.digits 2 8 b.toNat := by simp [Text.binary]
    rw [parts]
    exact .data bits
  next => cases h
  next first r v rest =>
    obtain rfl := Option.some.inj h
    have parts : (Opcode.ldi.mnemonic ++ " " ++ register r ++ "," ++ Text.decimal v.toNat).toList =
        "LDI R".toList ++ Text.digits 10 0 r.toNat ++ ',' :: Text.digits 10 0 v.toNat := by
      simp [Opcode.mnemonic, Text.decimal, toList_register]
    rw [parts]
    exact .load (Text.isNumeral_digits (by decide) (by decide) 0 r.toNat)
      (Text.isNumeral_digits (by decide) (by decide) 0 v.toNat)
  next => cases h
  next op first other =>
    obtain rfl := Option.some.inj h
    exact .alone other
  next op first operands _ other some =>
    obtain rfl := Option.some.inj h
    obtain ⟨b, rest, rfl⟩ := List.exists_cons_of_ne_nil some
    have parts : (op.mnemonic ++ " " ++ ",".intercalate ((b :: rest).map register)).toList =
        op.mnemonic.toList ++ ' ' :: [','].intercalate ((b :: rest).map fun b =>
          (register b).toList) := by
      simp [String.toList_intercalate, Function.comp_def]
    rw [parts]
    exact .registers other (asRegisters_iff.2 rfl)
  next => cases h

theorem shown_iff {l : Line} {cs : List Char} :
    l.Shown cs ↔ l.render? = some (String.ofList cs) := by
  rw [render?, Option.map_eq_some_iff]
  constructor
  · rintro (@⟨address, pairs, pad, text, hexAddress, hexBytes, blank, width, inWords⟩)
    refine ⟨String.ofList text, text?_of_inWords inWords, ?_⟩
    obtain rfl := hexAddress.eq_digits (by decide) (by decide)
    obtain rfl : pairs = l.hexWords := pairs_iff.1 hexBytes
    obtain rfl : pad = List.replicate (8 - ([' '].intercalate l.hexWords).length) ' ' := by
      rw [List.length_append] at width
      exact List.eq_replicate_iff.2 ⟨by omega, blank⟩
    simp [← String.toList_inj, toList_columns, hexColumn]
  · rintro ⟨text, words, whole⟩
    have parts : cs = Text.digits 16 2 l.address ++ ":  ".toList ++ [' '].intercalate l.hexWords ++
        List.replicate (8 - ([' '].intercalate l.hexWords).length) ' ' ++ "  ".toList ++
          text.toList := by
      rw [← String.toList_inj, String.toList_ofList] at whole
      simp [← whole, toList_columns, hexColumn]
    rw [parts]
    refine .columns (Text.isNumeral_digits (by decide) (by decide) 2 l.address) (pairs_iff.2 rfl)
      (fun c hc => List.eq_of_mem_replicate hc) ?_ (inWords_of_text? words)
    rw [List.length_append, List.length_replicate]
    omega

theorem needed_of_ne {op : Opcode} (other : op ≠ .ldi) : (Kind.instruction op).needed = 1 := by
  unfold Kind.needed
  split
  next same => exact absurd (Kind.instruction.inj same) other
  next => rfl
  next => rfl

theorem text?_eq_none_iff {l : Line} : l.text? = none ↔ l.bytes.length < l.kind.needed := by
  obtain ⟨a, bytes, kind⟩ := l
  unfold text?
  dsimp only
  split
  next => simp [Kind.needed]
  next => simp [Kind.needed]
  next => simp [Kind.needed]
  next short =>
    rcases bytes with _ | ⟨_, _ | ⟨_, _ | ⟨_, _⟩⟩⟩
    · simp [Kind.needed]
    · simp [Kind.needed]
    · simp [Kind.needed]
    · exact absurd rfl (short _ _ _ _)
  next other => simp [needed_of_ne other]
  next other _ => simp [needed_of_ne other]
  next other => simp [needed_of_ne other]

/-- A line is shown unless it has fewer bytes than its kind needs, whatever else they are, and its
text is the one that its address, its bytes and its kind tell. -/
theorem shown_unless_bytes_missing (l : Line) :
    (l.render? = none ↔ l.bytes.length < l.kind.needed) ∧
      ∀ text : String, l.render? = some text ↔ l.Shown text.toList := by
  rw [render?, Option.map_eq_none_iff]
  refine ⟨text?_eq_none_iff, fun text => ?_⟩
  rw [← render?, shown_iff, String.ofList_toList]

example : render? ⟨0x1FF, [1, 2, 30, 4], .instruction .hlt⟩ =
    some "1ff:  01 02 1e 04  HLT R2,R30,R4" := by decide +kernel

end Line
end ByteCpu.Listing
