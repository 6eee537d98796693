import NoteAssistant.Proofs.Json.Parts
import NoteAssistant.Retrieval.Normalization

/-! # What is kept of a note's blocks

The texts of a tree are its strings under the name `text`, in the order of a walk. A string that
stands inside another value under that name is covered: the walk does not get there. So the
paragraph of a block has all of its texts if and only if those that are covered are empty
(`Normalization.normalize_keeps`).
-/

namespace NoteAssistant.Normalization

open Json (Value)

/-! ## The walk -/

/-- A string under the name `text`. -/
structure StoredText where
  text : String
  /-- It stands inside another value under that name. -/
  covered : Bool
  deriving DecidableEq, Repr

def ownTexts (covered : Bool) (members : List (String × Value)) : List StoredText :=
  match members.lookup "text" with
  | some (.string s) => [⟨s, covered⟩]
  | _ => []

mutual

/-- All texts of a tree: of an object its own one first, then those inside its members in the
    order of their names. -/
def texts (covered : Bool) : Value → List StoredText
  | .object members => ownTexts covered members ++ memberTexts covered members
  | .array items => itemTexts covered items
  | _ => []

def itemTexts (covered : Bool) : List Value → List StoredText
  | [] => []
  | v :: vs => texts covered v ++ itemTexts covered vs

def memberTexts (covered : Bool) : List (String × Value) → List StoredText
  | [] => []
  | (name, v) :: ms => texts (covered || name = "text") v ++ memberTexts covered ms

end

def joined (ts : List StoredText) : String := String.join (ts.map (·.text))

/-- The texts that are not covered. -/
def uncovered (ts : List StoredText) : List StoredText := ts.filter fun t => !t.covered

/-- A tree has a string under the name `text`, at any depth. -/
def Stores (v : Value) (s : String) : Prop :=
  ∃ members, v.Part (.object members) ∧ ("text", .string s) ∈ members

/-- A tree has such a string inside another value under the name `text`. -/
def Covers (v : Value) (s : String) : Prop :=
  ∃ members inner, v.Part (.object members) ∧ ("text", inner) ∈ members ∧ Stores inner s

section Lists

variable {covered : Bool} {ts us : List StoredText}

theorem itemTexts_eq (items : List Value) :
    itemTexts covered items = items.flatMap (texts covered) := by
  induction items with
  | nil => rfl
  | cons v vs ih => rw [itemTexts, ih, List.flatMap_cons]

theorem memberTexts_eq (members : List (String × Value)) :
    memberTexts covered members =
      members.flatMap fun m => texts (covered || m.1 = "text") m.2 := by
  induction members with
  | nil => rfl
  | cons m ms ih => rw [memberTexts, ih, List.flatMap_cons]

theorem joined_append : joined (ts ++ us) = joined ts ++ joined us := by
  rw [joined, List.map_append, String.join_append, joined, joined]

theorem uncovered_append : uncovered (ts ++ us) = uncovered ts ++ uncovered us :=
  List.filter_append _ _

theorem joined_cons (t : StoredText) : joined (t :: ts) = t.text ++ joined ts :=
  String.join_cons

theorem length_uncovered_le (ts : List StoredText) :
    (joined (uncovered ts)).length ≤ (joined ts).length := by
  induction ts with
  | nil => exact le_rfl
  | cons t ts ih =>
      cases under : t.covered with
      | true =>
          rw [uncovered, List.filter_cons_of_neg (by simp [under]), joined_cons,
            String.length_append]
          exact ih.trans (Nat.le_add_left _ _)
      | false =>
          rw [uncovered, List.filter_cons_of_pos (by simp [under]), joined_cons, joined_cons,
            String.length_append, String.length_append]
          exact Nat.add_le_add_left ih _

/-- Nothing of the texts is lost if and only if those that are covered are empty. -/
theorem joined_uncovered_iff :
    joined (uncovered ts) = joined ts ↔ ∀ t ∈ ts, t.covered = true → t.text = "" := by
  induction ts with
  | nil => simp [uncovered]
  | cons t ts ih =>
      rw [List.forall_mem_cons, ← ih, joined_cons]
      cases under : t.covered with
      | true =>
          rw [uncovered, List.filter_cons_of_neg (by simp [under])]
          change joined (uncovered ts) = _ ↔ _
          constructor
          · intro same
            have lengths := congrArg String.length same
            have short := length_uncovered_le ts
            rw [String.length_append] at lengths
            have empty : t.text = "" := String.length_eq_zero_iff.mp (by omega)
            exact ⟨fun _ => empty, by rwa [empty, String.empty_append] at same⟩
          · rintro ⟨empty, same⟩
            rw [empty rfl, String.empty_append, same]
      | false =>
          rw [uncovered, List.filter_cons_of_pos (by simp [under]), joined_cons,
            String.append_right_inj]
          simp [uncovered]

end Lists

/-! ## What the walk collects -/

theorem covered_of_mem_texts (v : Value) : ∀ t ∈ texts true v, t.covered = true := by
  induction v using Value.nested with
  | null | bool | number | string => exact nofun
  | array items ih =>
      intro t mem
      rw [texts, itemTexts_eq] at mem
      obtain ⟨v, inside, mem⟩ := List.mem_flatMap.mp mem
      exact ih v inside t mem
  | object members ih =>
      intro t mem
      rw [texts, memberTexts_eq] at mem
      rcases List.mem_append.mp mem with own | mem
      · unfold ownTexts at own
        split at own
        · rw [List.mem_singleton.mp own]
        · cases own
      · obtain ⟨m, inside, mem⟩ := List.mem_flatMap.mp mem
        exact ih m inside t (by simpa using mem)

theorem uncovered_texts_true (v : Value) : uncovered (texts true v) = [] := by
  rw [uncovered, List.filter_eq_nil_iff]
  intro t mem
  simp [covered_of_mem_texts v t mem]

theorem joined_ownTexts (members : List (String × Value)) :
    joined (uncovered (ownTexts false members)) = ownText members := by
  unfold ownTexts ownText
  cases members.lookup "text" with
  | none => rfl
  | some v => cases v <;> simp [uncovered, joined]

/-- The walk collects the texts that are not covered. -/
theorem collected_eq (v : Value) : collected v = joined (uncovered (texts false v)) := by
  induction v using Value.nested with
  | null | bool | number | string => rfl
  | array items ih =>
      rw [collected, texts]
      induction items with
      | nil => rfl
      | cons v vs inner =>
          obtain ⟨first, rest⟩ := List.forall_mem_cons.mp ih
          rw [collectedItems, itemTexts, uncovered_append, joined_append, first, inner rest]
  | object members ih =>
      rw [collected, texts, uncovered_append, joined_append, joined_ownTexts]
      congr 1
      induction members with
      | nil => rfl
      | cons m ms inner =>
          obtain ⟨first, rest⟩ := List.forall_mem_cons.mp ih
          rw [collectedMembers, memberTexts, uncovered_append, joined_append, inner rest]
          congr 1
          split
          case isTrue same =>
            simp [same, uncovered_texts_true]
            rfl
          case isFalse other => simpa [other] using first

/-! ## What the walk finds -/

section Found

variable {items : List Value} {members : List (String × Value)} {s : String} {v : Value}

theorem stores_array : Stores (.array items) s ↔ ∃ v ∈ items, Stores v s := by
  simp only [Stores, Value.part_array_iff]
  grind

theorem stores_object :
    Stores (.object members) s ↔ ("text", .string s) ∈ members ∨ ∃ m ∈ members, Stores m.2 s := by
  simp only [Stores, Value.part_object_iff]
  grind

theorem covers_array : Covers (.array items) s ↔ ∃ v ∈ items, Covers v s := by
  simp only [Covers, Value.part_array_iff]
  grind

theorem covers_object :
    Covers (.object members) s ↔
      (∃ inner, ("text", inner) ∈ members ∧ Stores inner s) ∨ ∃ m ∈ members, Covers m.2 s := by
  simp only [Covers, Value.part_object_iff]
  grind

theorem mem_ownTexts {covered c : Bool} (ascending : Value.Ascending members) :
    ⟨s, c⟩ ∈ ownTexts covered members ↔ c = covered ∧ ("text", .string s) ∈ members := by
  rw [← ascending.lookup_eq_some_iff, ownTexts]
  split <;> grind

theorem not_stores (noArray : ∀ items, v ≠ .array items) (noObject : ∀ ms, v ≠ .object ms) :
    ¬ Stores v s := by
  rintro ⟨members, part, -⟩
  cases part with
  | self => exact noObject _ rfl
  | item => exact noArray _ rfl
  | member => exact noObject _ rfl

theorem Covers.stores (covers : Covers v s) : Stores v s := by
  induction v using Value.nested with
  | null | bool | number | string =>
      obtain ⟨members, _, part, _⟩ := covers
      cases part
  | array items ih =>
      obtain ⟨v, inside, covers⟩ := covers_array.mp covers
      exact stores_array.mpr ⟨v, inside, ih v inside covers⟩
  | object members ih =>
      rw [stores_object]
      rcases covers_object.mp covers with ⟨inner, inside, stores⟩ | ⟨m, inside, covers⟩
      · exact .inr ⟨_, inside, stores⟩
      · exact .inr ⟨m, inside, ih m inside covers⟩

/-- The walk finds every string under the name `text`, and no others. -/
theorem exists_mem_texts (ordered : v.Ordered) (covered : Bool) :
    (∃ c, ⟨s, c⟩ ∈ texts covered v) ↔ Stores v s := by
  induction v using Value.nested generalizing covered with
  | null | bool | number | string =>
      exact iff_of_false (by simp [texts]) (not_stores (by simp) (by simp))
  | array items ih =>
      rw [stores_array, texts, itemTexts_eq]
      have each (v) (inside : v ∈ items) := ih v inside (ordered.item inside) covered
      grind
  | object members ih =>
      have ascending := ordered _ (.self _)
      have each (m) (inside : m ∈ members) :
          Stores m.2 s ↔ ∃ c, ⟨s, c⟩ ∈ texts (covered || m.1 = "text") m.2 :=
        (ih m inside (ordered.member inside) _).symm
      rw [stores_object, texts, memberTexts_eq]
      simp only [List.mem_append, mem_ownTexts ascending, List.mem_flatMap, exists_or,
        exists_eq_left]
      grind

theorem mem_texts_true (ordered : v.Ordered) : ⟨s, true⟩ ∈ texts true v ↔ Stores v s := by
  rw [← exists_mem_texts ordered true]
  constructor
  · exact fun mem => ⟨true, mem⟩
  · rintro ⟨c, mem⟩
    obtain rfl : c = true := covered_of_mem_texts v _ mem
    exact mem

/-- Those that are covered are found under the name `text` of an object around them. -/
theorem mem_texts_covered (ordered : v.Ordered) : ⟨s, true⟩ ∈ texts false v ↔ Covers v s := by
  induction v using Value.nested with
  | null | bool | number | string =>
      exact iff_of_false (by simp [texts]) fun covers =>
        not_stores (by simp) (by simp) covers.stores
  | array items ih =>
      rw [covers_array, texts, itemTexts_eq]
      have each (v) (inside : v ∈ items) := ih v inside (ordered.item inside)
      grind
  | object members ih =>
      have ascending := ordered _ (.self _)
      have each (m) (inside : m ∈ members) :
          ⟨s, true⟩ ∈ texts (m.1 = "text") m.2 ↔ m.1 = "text" ∧ Stores m.2 s ∨ Covers m.2 s := by
        by_cases under : m.1 = "text"
        · have all : Covers m.2 s → Stores m.2 s := Covers.stores
          simpa [under, mem_texts_true (ordered.member inside)] using all
        · simpa [under] using ih m inside (ordered.member inside)
      rw [covers_object, texts, memberTexts_eq]
      simp only [List.mem_append, mem_ownTexts ascending, List.mem_flatMap, Bool.false_or]
      grind

end Found

/-! ## The text of the blocks -/

/-- The paragraphs with blank lines between them; blank ones are left out. -/
def paragraphed (paragraphs : List String) : String :=
  String.intercalate "\n\n" (paragraphs.filter fun p => !isBlankText p)

def wholeParagraph (block : Value) : String := joined (texts false block)

def keptParagraph (block : Value) : String := joined (uncovered (texts false block))

/-- A paragraph is whole if and only if no text of its block is covered by another, empty ones
    apart. -/
theorem keptParagraph_eq_iff {block : Value} (ordered : block.Ordered) :
    keptParagraph block = wholeParagraph block ↔ ∀ s, Covers block s → s = "" := by
  rw [keptParagraph, wholeParagraph, joined_uncovered_iff]
  constructor
  · intro empty s covers
    exact empty ⟨s, true⟩ ((mem_texts_covered ordered).mpr covers) rfl
  · rintro empty ⟨s, c⟩ mem rfl
    exact empty s ((mem_texts_covered ordered).mp mem)

theorem normalize_blocks_eq {raw : String} {blocks : List Value}
    (read : Value.parse? raw = some (.array blocks)) :
    normalize .blocks raw = paragraphed (blocks.map keptParagraph) := by
  have walk : collected = keptParagraph := funext collected_eq
  rw [normalize, ofBlocks, read, ← walk]
  rfl

/-- What is no JSON is taken as it is. Of an array each block gives a paragraph of the strings
    under the name `text` in it, at any depth, in the order of the walk, but for those that stand
    inside another value under that name: the paragraph is whole if and only if these are empty. -/
theorem normalize_keeps (raw : String) :
    (Value.parse? raw = none → normalize .blocks raw = raw) ∧
    ∀ blocks, Value.parse? raw = some (.array blocks) →
      normalize .blocks raw = paragraphed (blocks.map keptParagraph) ∧
      ((∀ b ∈ blocks, ∀ s, Covers b s → s = "") →
        normalize .blocks raw = paragraphed (blocks.map wholeParagraph)) ∧
      ∀ b ∈ blocks, (∀ s, (∃ c, ⟨s, c⟩ ∈ texts false b) ↔ Stores b s) ∧
        (keptParagraph b = wholeParagraph b ↔ ∀ s, Covers b s → s = "") := by
  constructor
  · intro unread
    rw [normalize, ofBlocks, unread]
  · intro blocks read
    have ordered (b) (mem : b ∈ blocks) : b.Ordered := (Value.ordered_of_parse? read).item mem
    have kept := normalize_blocks_eq read
    refine ⟨kept, ?_, ?_⟩
    · intro empty
      have same : blocks.map keptParagraph = blocks.map wholeParagraph := by
        refine List.map_congr_left fun b mem => ?_
        exact (keptParagraph_eq_iff (ordered b mem)).mpr (empty b mem)
      rw [kept, same]
    · intro b mem
      exact ⟨fun s => exists_mem_texts (ordered b mem) false, keptParagraph_eq_iff (ordered b mem)⟩

/-- The texts of blocks that have been read. -/
def blockTexts? (raw : String) : Option (List (List StoredText)) :=
  match Value.parse? raw with
  | some (.array blocks) => some (blocks.map (texts false))
  | _ => none

theorem blockTexts?_eq_some {raw : String} {ts : List (List StoredText)}
    (found : blockTexts? raw = some ts) :
    ∃ blocks, Value.parse? raw = some (.array blocks) ∧ blocks.map (texts false) = ts := by
  unfold blockTexts? at found
  split at found
  case h_1 blocks read => exact ⟨blocks, read, Option.some.inj found⟩
  case h_2 => cases found

/-- Blocks with one text below another, and with an empty one inside a value under that name. -/
def nestedBlocks : String :=
  "[\x7b\"text\":\"a\",\"and\":[\x7b\"text\":\"b\"\x7d]\x7d,\x7b\"text\":\x7b\"text\":\"\"\x7d\x7d]"

theorem normalize_keeps_nested :
    ∃ blocks, Value.parse? nestedBlocks = some (.array blocks) ∧
      blocks.map (texts false) = [[⟨"a", false⟩, ⟨"b", false⟩], [⟨"", true⟩]] ∧
      (∀ b ∈ blocks, ∀ s, Covers b s → s = "") ∧
      normalize .blocks nestedBlocks = paragraphed (blocks.map wholeParagraph) ∧
      normalize .blocks nestedBlocks = "ab" := by
  have found : blockTexts? nestedBlocks = some [[⟨"a", false⟩, ⟨"b", false⟩], [⟨"", true⟩]] := by
    decide +kernel
  obtain ⟨blocks, read, found⟩ := blockTexts?_eq_some found
  obtain ⟨-, keeps, -⟩ := (normalize_keeps nestedBlocks).2 blocks read
  have empty : ∀ b ∈ blocks, ∀ s, Covers b s → s = "" := by
    intro b mem s covers
    have inside := (mem_texts_covered ((Value.ordered_of_parse? read).item mem)).mpr covers
    have listed : texts false b ∈ blocks.map (texts false) := List.mem_map_of_mem mem
    rw [found] at listed
    grind
  have whole : blocks.map wholeParagraph = ["ab", ""] := by
    rw [show wholeParagraph = joined ∘ texts false from rfl, ← List.map_map, found]
    decide +kernel
  refine ⟨blocks, read, found, empty, keeps empty, ?_⟩
  rw [keeps empty, whole]
  decide +kernel

/-- A block whose text stands inside a value under the name `text`. -/
def coveredBlock : String := "[\x7b\"text\":\x7b\"text\":\"inner\"\x7d\x7d]"

theorem normalize_loses_covered :
    ¬ ∀ raw blocks, Value.parse? raw = some (.array blocks) →
      normalize .blocks raw = paragraphed (blocks.map wholeParagraph) := by
  intro claimed
  have found : blockTexts? coveredBlock = some [[⟨"inner", true⟩]] := by decide +kernel
  obtain ⟨blocks, read, found⟩ := blockTexts?_eq_some found
  have whole : blocks.map wholeParagraph = ["inner"] := by
    rw [show wholeParagraph = joined ∘ texts false from rfl, ← List.map_map, found]
    decide +kernel
  have same := claimed coveredBlock blocks read
  rw [whole] at same
  exact absurd same (by decide +kernel)

end NoteAssistant.Normalization
