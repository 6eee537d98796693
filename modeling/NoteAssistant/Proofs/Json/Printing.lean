import NoteAssistant.Proofs.Json.Grammar

/-! # The printed text of a tree

A tree whose strings are texts and whose numbers are written as numbers has a printed text, and the
text denotes this tree and no other (`Tree.Proper.denotes`). The trees that are built from texts,
whole numbers, lists and records are of this kind.
-/

namespace NoteAssistant.Json

/-! ## Whole numbers -/

section Digits

/-- Only zero itself begins with a zero. -/
theorem head?_toDigits {n : Nat} (positive : 0 < n) : (Nat.toDigits 10 n).head? ≠ some '0' := by
  induction n using Nat.strongRecOn with
  | ind n ih =>
      by_cases small : n < 10
      · rw [Nat.toDigits_of_lt_base small]
        have digit : ∀ d < 10, 0 < d → [Nat.digitChar d].head? ≠ some '0' := by decide
        exact digit n small positive
      · rw [Nat.toDigits_of_base_le (by decide) (by omega),
          List.head?_append_of_ne_nil _ Nat.toDigits_ne_nil]
        exact ih (n / 10) (by omega) (by omega)

theorem wholeDigits_toDigits (n : Nat) : WholeDigits (Nat.toDigits 10 n) := by
  rcases Nat.eq_zero_or_pos n with rfl | positive
  · exact .inl rfl
  · have digits (c : Char) (mem : c ∈ Nat.toDigits 10 n) : c.isDigit = true :=
      Nat.isDigit_of_mem_toDigits (by decide) (by decide) mem
    exact .inr ⟨⟨Nat.toDigits_ne_nil, digits⟩, head?_toDigits positive⟩

theorem numberText_ofNat (n : Nat) : NumberText (.ofNat n) (Numeral.ofNat n).text := by
  have text : (Numeral.ofNat n).text = Nat.toDigits 10 n ++ ([] ++ []) := by
    simp [Numeral.text, Numeral.ofNat]
  rw [text]
  exact .plain rfl (.written (wholeDigits_toDigits n) .none .none)

/-- The digits of a number have the number as their value. -/
theorem foldl_toDigits (n : Nat) :
    (Nat.toDigits 10 n).foldl (fun v c => 10 * v + Numeral.digitValue c) 0 = n := by
  have value := Nat.ofDigitChars_ten_toDigits (n := n)
  rwa [Nat.ofDigitChars_eq_foldl] at value

theorem value?_ofNat {n : Nat} (fits : n ≤ Numeral.limit) :
    (Numeral.ofNat n).value? = some (.natural n) := by
  simp [Numeral.value?, Numeral.ofNat, foldl_toDigits, fits]

end Digits

/-! ## Trees -/

/-- A tree whose strings are texts and whose numbers are written as numbers. -/
inductive Tree.Proper : Tree → Prop where
  | null : Proper .null
  | bool (b : Bool) : Proper (.bool b)
  | number {n : Numeral} (text : NumberText n n.text) : Proper (.number n)
  | ofString (text : String) : Proper (.ofString text)
  | array {items : List Tree} (each : ∀ t ∈ items, Proper t) : Proper (.array items)
  | record {members : List (String × Tree)} (each : ∀ m ∈ members, Proper m.2) :
      Proper (.record members)

section Printing

variable {t : Tree} {ts : List Tree}

/-- The text of a tree, in front of any other text, is read as the tree. -/
def Tree.Prints (t : Tree) : Prop := ∀ rest, Begins (.value t) (t.chars ++ rest) rest

theorem begins_items (each : ∀ u ∈ t :: ts, u.Prints) (rest : List Char) :
    Begins (.items (t :: ts)) (commas (itemTexts (t :: ts)) ++ rest) rest := by
  -- By what is behind the first item, since `commas` ends with the last item and no comma.
  induction ts generalizing t with
  | nil => exact .lastItem (each t List.mem_cons_self rest).alone
  | cons u ts ih =>
      have later := ih fun v mem => each v (List.mem_cons_of_mem t mem)
      have first := each t List.mem_cons_self
      simp only [itemTexts, commas, List.append_assoc, List.cons_append] at later ⊢
      exact .item (first _).alone later

theorem begins_member (name : String) (prints : t.Prints) (rest : List Char) :
    Begins (.member (some name, t)) (printString name ++ ':' :: t.chars ++ rest) rest := by
  have text : printString name ++ ':' :: t.chars ++ rest =
      [] ++ '"' :: (name.toList.flatMap escape ++ '"' :: ([] ++ ':' :: (t.chars ++ rest))) := by
    simp [printString]
  rw [text]
  exact .member nofun (.text (spells_escape _)) nofun (prints rest).alone

theorem begins_members {members : List (String × Tree)} {m : String × Tree}
    (each : ∀ n ∈ m :: members, n.2.Prints) (rest : List Char) :
    Begins (.members ((m :: members).map fun (name, t) => (some name, t)))
      (commas (memberTexts ((m :: members).map fun (name, t) => (some name, t))) ++ rest) rest := by
  induction members generalizing m with
  | nil => exact .lastMember (begins_member m.1 (each m List.mem_cons_self) rest)
  | cons n members ih =>
      have later := ih fun v mem => each v (List.mem_cons_of_mem m mem)
      have first := begins_member m.1 (each m List.mem_cons_self)
      simp only [List.map_cons, memberTexts, commas, Option.getD_some, List.append_assoc,
        List.cons_append] at first later ⊢
      exact .members (first _) later

theorem Tree.Proper.prints (proper : t.Proper) : t.Prints := by
  induction proper with
  | null => exact fun rest => .null
  | bool b =>
      cases b with
      | true => exact fun rest => .yes
      | false => exact fun rest => .no
  | number text => exact fun rest => .number text
  | ofString text =>
      intro rest
      have whole : (Tree.ofString text).chars ++ rest =
          '"' :: (text.toList.flatMap escape ++ '"' :: rest) := by
        simp [Tree.ofString, Tree.chars, printString]
      rw [whole]
      exact .string (.text (spells_escape _))
  | @array items _ ih =>
      intro rest
      cases items with
      | nil => exact @Begins.emptyArray [] rest (List.forall_mem_nil _)
      | cons t ts =>
          have inner := begins_items ih (']' :: rest)
          simpa [Tree.chars] using Begins.array inner
  | @record members _ ih =>
      intro rest
      cases members with
      | nil => exact @Begins.emptyObject [] rest (List.forall_mem_nil _)
      | cons m members =>
          have inner := begins_members ih ('}' :: rest)
          simpa [Tree.chars, Tree.record] using Begins.object inner

/-- A printed tree is what its text denotes. -/
theorem Tree.Proper.denotes (proper : t.Proper) : Denotes t.text.toList t := by
  have prints := proper.prints []
  rw [List.append_nil] at prints
  rw [Tree.text, String.toList_ofList]
  exact prints.alone

end Printing

namespace Tree.Proper

attribute [simp] null bool ofString

@[simp]
theorem ofNat (n : Nat) : (Tree.ofNat n).Proper := .number (numberText_ofNat n)

@[simp]
theorem ofWord (n : UInt32) : (Tree.ofWord n).Proper := ofNat n.toNat

@[simp]
theorem ofStrings (texts : List String) : (Tree.ofStrings texts).Proper :=
  .array (List.forall_mem_map.mpr fun text _ => .ofString text)

@[simp]
theorem ofOption {α : Type} {image : α → Tree} (proper : ∀ a, (image a).Proper)
    (value : Option α) : (Tree.ofOption image value).Proper := by
  cases value with
  | none => exact .null
  | some a => exact proper a

end Tree.Proper

end NoteAssistant.Json
