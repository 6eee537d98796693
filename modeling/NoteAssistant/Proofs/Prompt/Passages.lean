import Mathlib.Data.List.TakeWhile
import Mathlib.Data.Nat.Digits.Defs
import NoteAssistant.Proofs.Text.Search
import NoteAssistant.Prompt.Passages

/-! # Telling passages apart

What a reader makes of a block of passages who knows nothing but its layout. The block is cut at its
divider lines, and each document is cut on its own (`passages_render`): its texts are written as
they are, so a line of a document that is a divider itself makes another passage. The documents are
read back if and only if none of their lines is taken for a part of the layout
(`passages_separable`).
-/

namespace NoteAssistant.Passages

abbrev Line := List Char

def lines (s : List Char) : List Line := s.splitOn '\n'

/-- The text that has the given lines. -/
def unlined (ls : List Line) : String := String.ofList (['\n'].intercalate ls)

def dividerLine : Line := divider.toList

/-- What stands between the divider lines of a block. -/
def passages (block : String) : List (List Line) :=
  ((lines block.toList).splitOn dividerLine).tail.dropLast

section Lines

variable {s rest : List Char}

theorem lines_append (s rest : List Char) : lines (s ++ '\n' :: rest) = lines s ++ lines rest :=
  List.splitOn_append_cons_self s rest

theorem lines_of_unbroken (unbroken : '\n' ∉ s) : lines s = [s] :=
  List.splitOnP_eq_singleton fun c mem => by
    rw [beq_eq_false_iff_ne]
    rintro rfl
    exact unbroken mem

/-- What is written in front of a text goes to its first line. -/
theorem lines_marked {mark : List Char} (unbroken : '\n' ∉ mark) (s : List Char) :
    ∃ first, lines (mark ++ s) = (mark ++ first) :: (lines s).tail ∧
      lines s = first :: (lines s).tail := by
  obtain ⟨first, later, cut⟩ := List.exists_cons_of_ne_nil (List.splitOn_ne_nil '\n' s)
  refine ⟨first, ?_, by rw [lines, cut, List.tail_cons]⟩
  induction mark with
  | nil => rw [List.nil_append, lines, cut, List.tail_cons, List.nil_append]
  | cons c mark ih =>
      obtain ⟨other, unbroken⟩ : '\n' ≠ c ∧ '\n' ∉ mark := by simpa using unbroken
      have apart : (c == '\n') = false := beq_eq_false_iff_ne.mpr other.symm
      rw [List.cons_append, lines, List.splitOn, List.splitOnP_cons_eq_if_modifyHead, apart]
      have below := ih unbroken
      rw [lines, List.splitOn] at below
      rw [if_neg Bool.false_ne_true, below]
      rfl

theorem unbroken_of_mem_lines {line : Line} (mem : line ∈ lines s) : '\n' ∉ line := by
  induction s generalizing line with
  | nil =>
      obtain rfl : line = [] := by simpa [lines] using mem
      exact List.not_mem_nil
  | cons c s ih =>
      rw [lines, List.splitOn, List.splitOnP_cons_eq_if_modifyHead, ← List.splitOn] at mem
      split at mem
      case isTrue =>
        rcases List.mem_cons.mp mem with rfl | later
        · exact List.not_mem_nil
        · exact ih later
      case isFalse other =>
        obtain ⟨first, later, cut⟩ := List.exists_cons_of_ne_nil (List.splitOn_ne_nil '\n' s)
        rw [cut, List.modifyHead_cons] at mem
        rcases List.mem_cons.mp mem with rfl | there
        · have below : '\n' ∉ first := ih (by rw [lines, cut]; exact List.mem_cons_self)
          have differs : '\n' ≠ c := fun same => other (beq_iff_eq.mpr same.symm)
          simp [differs, below]
        · exact ih (by rw [lines, cut]; exact List.mem_cons_of_mem _ there)

theorem unlined_lines (text : String) : unlined (lines text.toList) = text := by
  rw [unlined, lines, List.intercalate_splitOn, String.ofList_toList]

theorem lines_unlined {ls : List Line} (unbroken : ∀ line ∈ ls, '\n' ∉ line) (there : ls ≠ []) :
    lines (unlined ls).toList = ls := by
  rw [lines, unlined, String.toList_ofList, List.splitOn_intercalate '\n' unbroken there]

theorem length_splitOn {α : Type} [BEq α] [LawfulBEq α] (mark : α) (l : List α) :
    (l.splitOn mark).length = l.count mark + 1 := by
  induction l with
  | nil => rw [List.splitOn_nil, List.count_nil, List.length_singleton]
  | cons a l ih =>
      rw [List.splitOn, List.splitOnP_cons_eq_if_modifyHead, List.count_cons, ← List.splitOn]
      split
      · rw [List.length_cons, ih]
      · rw [List.length_modifyHead, ih, Nat.add_zero]

end Lines

/-! ## The lines of a block -/

/-- The lines of a text behind a mark. -/
def fieldLines (mark text : String) : List Line := lines (mark.toList ++ text.toList)

def titleLines (title : String) : List Line :=
  if title = "" then [] else fieldLines "title: " title

/-- The lines of a passage without its divider. -/
def body (doc : EvidenceDoc) : List Line :=
  ("event time: " ++ doc.createdAt.minuteText).toList :: fieldLines "id: " doc.id ++
    (fieldLines "resource: " doc.resource ++ (titleLines doc.title ++
      "content:".toList :: lines (trimmedEnd doc.content).toList))

/-- The lines of a document that it is free to begin as it likes: all but the first ones of its id,
    resource and title. -/
def looseLines (doc : EvidenceDoc) : List Line :=
  (lines doc.id.toList).tail ++ (lines doc.resource.toList).tail ++ (lines doc.title.toList).tail ++
    lines (trimmedEnd doc.content).toList

/-- The lines of a document that are dividers. -/
def strays (doc : EvidenceDoc) : Nat := (looseLines doc).count dividerLine

theorem padded_unbroken (width n : Nat) : '\n' ∉ (Date.padded width n).toList := by
  intro mem
  rw [Date.padded, String.toList_ofList] at mem
  rcases List.mem_append.mp mem with zeros | digits
  · cases List.eq_of_mem_replicate zeros
  · cases Nat.isDigit_of_mem_toDigits (by decide) (by decide) digits

theorem time_unbroken (m : Moment) : '\n' ∉ ("event time: " ++ m.minuteText).toList := by
  have year : '\n' ∉ (Date.yearText m.date.year).toList := by
    unfold Date.yearText
    split
    · exact padded_unbroken 4 _
    · split <;> simp [padded_unbroken]
  simp [Moment.minuteText, Date.text, Moment.clockText, padded_unbroken, year]

theorem lines_field (mark text : String) (rest : List Char) :
    lines (mark.toList ++ (text.toList ++ '\n' :: rest)) = fieldLines mark text ++ lines rest := by
  rw [← List.append_assoc, lines_append, fieldLines]

theorem lines_title (title : String) (rest : List Char) :
    lines ((if title = "" then "" else "title: " ++ title ++ "\n").toList ++ rest) =
      titleLines title ++ lines rest := by
  unfold titleLines
  split
  case isTrue => rfl
  case isFalse =>
    rw [String.toList_append, String.toList_append, List.append_assoc, List.append_assoc]
    exact lines_field "title: " title rest

theorem lines_passage (doc : EvidenceDoc) (rest : List Char) :
    lines ((passage doc).toList ++ rest) = dividerLine :: body doc ++ lines rest := by
  have ruled : lines divider.toList = [dividerLine] := lines_of_unbroken (by decide)
  have headed : lines "content:".toList = ["content:".toList] := lines_of_unbroken (by decide)
  have timed := lines_of_unbroken (time_unbroken doc.createdAt)
  have newline : "\n".toList = ['\n'] := rfl
  have heading : "content:\n".toList = "content:".toList ++ ['\n'] := rfl
  have parts : (passage doc).toList ++ rest = divider.toList ++ '\n' ::
      (("event time: " ++ doc.createdAt.minuteText).toList ++ '\n' ::
      ("id: ".toList ++ (doc.id.toList ++ '\n' ::
      ("resource: ".toList ++ (doc.resource.toList ++ '\n' ::
      ((if doc.title = "" then "" else "title: " ++ doc.title ++ "\n").toList ++
      ("content:".toList ++ '\n' :: ((trimmedEnd doc.content).toList ++ '\n' :: rest)))))))) := by
    simp only [passage, String.toList_append, List.append_assoc, newline, heading,
      List.cons_append, List.nil_append]
  rw [parts, lines_append, lines_append, lines_field, lines_field, lines_title, lines_append,
    lines_append, ruled, headed, timed]
  simp only [body, List.append_assoc, List.cons_append, List.nil_append]

/-- The lines of a block: those of each document below a divider, and a last divider. -/
theorem lines_render {docs : List EvidenceDoc} (found : docs ≠ []) :
    lines (render docs).toList =
      docs.flatMap (fun doc => dividerLine :: body doc) ++ [dividerLine] := by
  have block (docs : List EvidenceDoc) :
      lines ((String.join (docs.map passage)).toList ++ divider.toList) =
        docs.flatMap (fun doc => dividerLine :: body doc) ++ [dividerLine] := by
    induction docs with
    | nil => exact lines_of_unbroken (by decide)
    | cons doc docs ih =>
        rw [List.map_cons, String.join_cons, String.toList_append, List.append_assoc,
          lines_passage, ih, List.flatMap_cons, List.append_assoc]
  rw [render, if_neg found, String.toList_append, block]

theorem splitOn_block (docs : List EvidenceDoc) (front : List Line) :
    (front ++ (docs.flatMap (fun doc => dividerLine :: body doc) ++ [dividerLine])).splitOn
        dividerLine =
      front.splitOn dividerLine ++
        (docs.flatMap (fun doc => (body doc).splitOn dividerLine) ++ [[]]) := by
  induction docs generalizing front with
  | nil => exact List.splitOn_append_cons_self front []
  | cons doc docs ih =>
      rw [List.flatMap_cons, List.flatMap_cons, List.cons_append, List.cons_append,
        List.splitOn_append_cons_self, List.append_assoc, ih, List.append_assoc]

theorem splitOn_render {docs : List EvidenceDoc} (found : docs ≠ []) :
    (lines (render docs).toList).splitOn dividerLine =
      [] :: (docs.flatMap (fun doc => (body doc).splitOn dividerLine) ++ [[]]) := by
  have cut := splitOn_block docs []
  rw [List.nil_append, List.splitOn_nil] at cut
  rw [lines_render found, cut]
  rfl

/-- Each document is cut on its own. -/
theorem passages_render (docs : List EvidenceDoc) :
    passages (render docs) = docs.flatMap fun doc => (body doc).splitOn dividerLine := by
  by_cases found : docs = []
  case pos =>
    subst found
    have alone : lines (render []).toList = ["null".toList] := lines_of_unbroken (by decide)
    rw [passages, alone, List.splitOn_eq_singleton (by decide)]
    rfl
  case neg => rw [passages, splitOn_render found, List.tail_cons, List.dropLast_concat]

/-! ## Dividers within documents -/

theorem count_marked {mark : String} (unbroken : '\n' ∉ mark.toList)
    (other : ∀ first, mark.toList ++ first ≠ dividerLine) (text : String) :
    (fieldLines mark text).count dividerLine = (lines text.toList).tail.count dividerLine := by
  obtain ⟨first, cut, -⟩ := lines_marked unbroken text.toList
  rw [fieldLines, cut, List.count_cons_of_ne (other first)]

theorem count_title (title : String) :
    (titleLines title).count dividerLine = (lines title.toList).tail.count dividerLine := by
  unfold titleLines
  split
  case isTrue none =>
    subst none
    rfl
  case isFalse => exact count_marked (by decide) (by simp [dividerLine, divider]) title

/-- Only loose lines can be dividers. -/
theorem count_body (doc : EvidenceDoc) : (body doc).count dividerLine = strays doc := by
  have id := @count_marked "id: " (by decide) (by simp [dividerLine, divider]) doc.id
  have resource := @count_marked "resource: " (by decide) (by simp [dividerLine, divider])
    doc.resource
  have timed : ("event time: " ++ doc.createdAt.minuteText).toList ≠ dividerLine := by
    simp [dividerLine, divider]
  have headed : "content:".toList ≠ dividerLine := by decide
  simp only [body, strays, looseLines, List.cons_append, List.count_cons_of_ne timed,
    List.count_append, id, resource, count_title, List.count_cons_of_ne headed]
  omega

/-! ## Reading passages -/

/-- What a document shows of itself. -/
structure Card where
  id : String
  resource : String
  title : String
  content : String
  deriving DecidableEq

def card (doc : EvidenceDoc) : Card := ⟨doc.id, doc.resource, doc.title, trimmedEnd doc.content⟩

def isResource (line : Line) : Bool := "resource: ".toList.isPrefixOf line

def isTitle (line : Line) : Bool := "title: ".toList.isPrefixOf line

def isHeading (line : Line) : Bool := line == "content:".toList

/-- The text behind a mark, up to a line that something else begins with, and the lines that are
    left. -/
def field (mark : String) (ends : Line → Bool) : List Line → String × List Line
  | [] => ("", [])
  | line :: rest =>
    (unlined (line.drop mark.toList.length :: rest.takeWhile (!ends ·)), rest.dropWhile (!ends ·))

/-- The title may be missing. -/
def titleField (ls : List Line) : String × List Line :=
  if ls.head?.any isTitle then field "title: " isHeading ls else ("", ls)

/-- The document that a passage shows below the line of the time. -/
def read (passage : List Line) : Card :=
  let (id, rest) := field "id: " isResource passage.tail
  let (resource, rest) := field "resource: " (fun line => isTitle line || isHeading line) rest
  let (title, rest) := titleField rest
  ⟨id, resource, title, unlined rest.tail⟩

section Fields

variable {mark text : String} {ends : Line → Bool} {rest : List Line}

theorem field_eq (unbroken : '\n' ∉ mark.toList)
    (free : ∀ line ∈ (lines text.toList).tail, ends line = false)
    (after : ∃ line later, rest = line :: later ∧ ends line = true) :
    field mark ends (fieldLines mark text ++ rest) = (text, rest) := by
  obtain ⟨line, later, rfl, ending⟩ := after
  obtain ⟨first, cut, whole⟩ := lines_marked unbroken text.toList
  have kept : ∀ line ∈ (lines text.toList).tail, (!ends line) = true := by simpa using free
  rw [fieldLines, cut, List.cons_append, field, List.drop_left, List.takeWhile_append_of_pos kept,
    List.dropWhile_append_of_pos kept, List.takeWhile_cons_of_neg (by simp [ending]),
    List.dropWhile_cons_of_neg (by simp [ending]), List.append_nil, ← whole, unlined_lines]

/-- A field is read as it is written only if none of its lines looks like the end of it. -/
theorem free_of_field (unbroken : '\n' ∉ mark.toList) (plain : ∀ line ∈ rest, '\n' ∉ line)
    (read : (field mark ends (fieldLines mark text ++ rest)).1 = text) :
    ∀ line ∈ (lines text.toList).tail, ends line = false := by
  obtain ⟨first, cut, whole⟩ := lines_marked unbroken text.toList
  rw [fieldLines, cut, List.cons_append, field, List.drop_left] at read
  have inside : ∀ line ∈ first :: ((lines text.toList).tail ++ rest).takeWhile (!ends ·),
      '\n' ∉ line := by
    intro line mem
    rcases List.mem_cons.mp mem with rfl | mem
    · exact unbroken_of_mem_lines (by rw [whole]; exact List.mem_cons_self)
    · rcases List.mem_append.mp ((List.takeWhile_sublist _).subset mem) with mem | mem
      · exact unbroken_of_mem_lines (List.mem_of_mem_tail mem)
      · exact plain line mem
  have same := lines_unlined inside (List.cons_ne_nil _ _)
  dsimp only at read
  rw [read, whole] at same
  intro line mem
  rw [(List.cons.inj same).2] at mem
  simpa using List.mem_takeWhile_imp mem

end Fields

/-- No line of a document is taken for the beginning of a later field. -/
structure Clear (doc : EvidenceDoc) : Prop where
  id : ∀ line ∈ (lines doc.id.toList).tail, isResource line = false
  resource : ∀ line ∈ (lines doc.resource.toList).tail, (isTitle line || isHeading line) = false
  title : ∀ line ∈ (lines doc.title.toList).tail, isHeading line = false

/-- No line of a document is taken for a part of the layout. -/
structure Plain (doc : EvidenceDoc) : Prop extends Clear doc where
  whole : dividerLine ∉ looseLines doc

theorem body_unbroken (doc : EvidenceDoc) : ∀ line ∈ body doc, '\n' ∉ line := by
  have title : ∀ line ∈ titleLines doc.title, '\n' ∉ line := by
    unfold titleLines
    split
    · exact List.forall_mem_nil _
    · exact fun line => unbroken_of_mem_lines
  intro line mem
  simp only [body, List.cons_append, List.mem_cons, List.mem_append] at mem
  rcases mem with rfl | mem | mem | mem | rfl | mem
  · exact time_unbroken _
  · exact unbroken_of_mem_lines mem
  · exact unbroken_of_mem_lines mem
  · exact title line mem
  · decide
  · exact unbroken_of_mem_lines mem

/-- The lines from the title on: that of the title or of the content ends the resource. -/
theorem title_follows (title : String) (rest : List Line) :
    ∃ line later, titleLines title ++ "content:".toList :: rest = line :: later ∧
      (isTitle line || isHeading line) = true := by
  unfold titleLines
  split
  case isTrue => exact ⟨_, _, rfl, by decide⟩
  case isFalse =>
    obtain ⟨first, cut, -⟩ := @lines_marked "title: ".toList (by decide) title.toList
    rw [fieldLines, cut]
    exact ⟨_, _, rfl, by simp [isTitle]⟩

theorem resource_follows (resource : String) (rest : List Line) :
    ∃ line later, fieldLines "resource: " resource ++ rest = line :: later ∧
      isResource line = true := by
  obtain ⟨first, cut, -⟩ := @lines_marked "resource: ".toList (by decide) resource.toList
  rw [fieldLines, cut]
  exact ⟨_, _, rfl, by simp [isResource]⟩

theorem titleField_marked (title : String) (rest : List Line) :
    titleField (fieldLines "title: " title ++ rest) =
      field "title: " isHeading (fieldLines "title: " title ++ rest) := by
  obtain ⟨first, cut, -⟩ := @lines_marked "title: ".toList (by decide) title.toList
  rw [titleField, fieldLines, cut]
  exact if_pos (by simp [isTitle])

theorem titleField_of_free {title : String} {ls : List Line}
    (free : ∀ line ∈ (lines title.toList).tail, isHeading line = false) :
    titleField (titleLines title ++ "content:".toList :: ls) =
      (title, "content:".toList :: ls) := by
  unfold titleLines
  split
  case isTrue none =>
    subst none
    rfl
  case isFalse => rw [titleField_marked, field_eq (by decide) free ⟨_, _, rfl, by decide⟩]

theorem free_of_titleField {title : String} {ls : List Line}
    (plain : ∀ line ∈ "content:".toList :: ls, '\n' ∉ line)
    (read : (titleField (titleLines title ++ "content:".toList :: ls)).1 = title) :
    ∀ line ∈ (lines title.toList).tail, isHeading line = false := by
  by_cases none : title = ""
  case pos =>
    subst none
    exact List.forall_mem_nil _
  case neg =>
    rw [titleLines, if_neg none, titleField_marked] at read
    exact free_of_field (by decide) plain read

theorem read_body_iff (doc : EvidenceDoc) : read (body doc) = card doc ↔ Clear doc := by
  let content := "content:".toList :: lines (trimmedEnd doc.content).toList
  let below := titleLines doc.title ++ content
  let rest := fieldLines "resource: " doc.resource ++ below
  have inBody : rest ⊆ body doc := List.subset_append_right _ _
  have inRest : below ⊆ rest := List.subset_append_right _ _
  have inBelow : content ⊆ below := List.subset_append_right _ _
  have unbroken := body_unbroken doc
  have id (free : ∀ line ∈ (lines doc.id.toList).tail, isResource line = false) :
      field "id: " isResource (body doc).tail = (doc.id, rest) :=
    field_eq (by decide) free (resource_follows _ _)
  have resource (free : ∀ line ∈ (lines doc.resource.toList).tail,
      (isTitle line || isHeading line) = false) :
      field "resource: " (fun line => isTitle line || isHeading line) rest =
        (doc.resource, below) :=
    field_eq (by decide) free (title_follows _ _)
  constructor
  · intro same
    have one : ∀ line ∈ (lines doc.id.toList).tail, isResource line = false :=
      free_of_field (by decide) (fun line mem => unbroken line (inBody mem))
        (congrArg Card.id same)
    have two : ∀ line ∈ (lines doc.resource.toList).tail,
        (isTitle line || isHeading line) = false := by
      have resourceRead := congrArg Card.resource same
      rw [read, id one] at resourceRead
      exact free_of_field (by decide) (fun line mem => unbroken line (inBody (inRest mem)))
        resourceRead
    have titleRead := congrArg Card.title same
    rw [read, id one] at titleRead
    dsimp only at titleRead
    rw [resource two] at titleRead
    have three := free_of_titleField
      (fun line mem => unbroken line (inBody (inRest (inBelow mem)))) titleRead
    exact ⟨one, two, three⟩
  · rintro ⟨one, two, three⟩
    rw [read, id one]
    dsimp only
    rw [resource two]
    dsimp only
    rw [titleField_of_free three, List.tail_cons, unlined_lines, card]

/-- A document makes one passage more for each divider among its lines. -/
theorem length_pieces (doc : EvidenceDoc) :
    ((body doc).splitOn dividerLine).length = strays doc + 1 := by
  rw [length_splitOn, count_body]

theorem pieces_of_whole {doc : EvidenceDoc} (whole : strays doc = 0) :
    (body doc).splitOn dividerLine = [body doc] :=
  List.splitOn_eq_singleton (List.count_eq_zero.mp (by rw [count_body, whole]))

theorem length_passages (docs : List EvidenceDoc) :
    (passages (render docs)).length = docs.length + (docs.map strays).sum := by
  rw [passages_render]
  induction docs with
  | nil => rfl
  | cons doc docs ih =>
      rw [List.flatMap_cons, List.length_append, length_pieces, ih, List.length_cons,
        List.map_cons, List.sum_cons]
      omega

theorem count_render {docs : List EvidenceDoc} (found : docs ≠ []) :
    (lines (render docs).toList).count dividerLine =
      docs.length + 1 + (docs.map strays).sum := by
  have cut := length_splitOn dividerLine (lines (render docs).toList)
  have passages := length_passages docs
  rw [splitOn_render found, ← passages_render, List.length_cons, List.length_append, passages,
    List.length_singleton] at cut
  omega

theorem render_eq_nothing (docs : List EvidenceDoc) : render docs = nothing ↔ docs = [] := by
  constructor
  · intro none
    by_contra found
    have dividers := count_render found
    have alone : lines nothing.toList = [nothing.toList] := lines_of_unbroken (by decide)
    have other : [nothing.toList].count dividerLine = 0 := by decide
    rw [none, alone, other] at dividers
    omega
  · rintro rfl
    rfl

theorem read_render_iff (docs : List EvidenceDoc) :
    (passages (render docs)).map read = docs.map card ↔ ∀ doc ∈ docs, Plain doc := by
  have plain (whole : ∀ doc ∈ docs, strays doc = 0) :
      passages (render docs) = docs.map body := by
    rw [passages_render, List.map_eq_flatMap]
    exact List.flatMap_congr fun doc mem => pieces_of_whole (whole doc mem)
  constructor
  · intro same
    have lengths := congrArg List.length same
    rw [List.length_map, List.length_map, length_passages] at lengths
    have whole : ∀ doc ∈ docs, strays doc = 0 := by
      simpa using List.sum_eq_zero_iff_forall_eq_nat.mp (Nat.add_eq_left.mp lengths)
    rw [plain whole, List.map_map, List.map_inj_left] at same
    exact fun doc mem =>
      ⟨(read_body_iff doc).mp (same doc mem), List.count_eq_zero.mp (whole doc mem)⟩
  · intro fine
    rw [plain fun doc mem => List.count_eq_zero.mpr (fine doc mem).whole, List.map_map,
      List.map_inj_left]
    exact fun doc mem => (read_body_iff doc).mpr (fine doc mem).toClear

theorem passages_separable (docs : List EvidenceDoc) :
    (render docs = nothing ↔ docs = []) ∧
      (docs ≠ [] → (lines (render docs).toList).splitOn dividerLine =
        [] :: (passages (render docs) ++ [[]])) ∧
      passages (render docs) = docs.flatMap (fun doc => (body doc).splitOn dividerLine) ∧
      (∀ doc, ((body doc).splitOn dividerLine).length = strays doc + 1) ∧
      (docs ≠ [] → (lines (render docs).toList).count dividerLine =
        docs.length + 1 + (docs.map strays).sum) ∧
      ((passages (render docs)).map read = docs.map card ↔ ∀ doc ∈ docs, Plain doc) := by
  refine ⟨render_eq_nothing docs, fun found => ?_, passages_render docs, length_pieces,
    count_render, read_render_iff docs⟩
  rw [passages_render, splitOn_render found]

/-- A note with blank lines, a title of two lines and something like a header in its content. -/
def tameNote : EvidenceDoc :=
  ⟨"k1", "knowledge", "note\nid: k2", "first\n\nresource: none\n-----\n", ⟨⟨2026, 2, 14⟩, 28800, 0⟩,
    none, false, []⟩

/-- A note that has a divider in its content. -/
def dividedNote : EvidenceDoc :=
  ⟨"k2", "knowledge", "", "one\n" ++ divider ++ "\ntwo", ⟨⟨2026, 2, 14⟩, 28800, 0⟩, none, false, []⟩

/-- Two tame notes are read back, with their contents up to the line break at the end. -/
theorem passages_separable_tame :
    let shown : Card := ⟨"k1", "knowledge", "note\nid: k2", "first\n\nresource: none\n-----"⟩
    [tameNote, tameNote] ≠ [] ∧
      (lines (render [tameNote, tameNote]).toList).count dividerLine = 3 ∧
      (passages (render [tameNote, tameNote])).map read = [shown, shown] := by
  intro shown
  have found : [tameNote, tameNote] ≠ [] := by decide
  have whole : strays tameNote = 0 := by decide +kernel
  have plain : Plain tameNote :=
    ⟨⟨by decide +kernel, by decide +kernel, by decide +kernel⟩, by decide +kernel⟩
  have trimmed : card tameNote = shown := by decide +kernel
  obtain ⟨-, -, -, -, count, back⟩ := passages_separable [tameNote, tameNote]
  refine ⟨found, ?_, ?_⟩
  · rw [count found]
    simp [whole]
  · rw [back.mpr (by simpa using plain), List.map_cons, List.map_cons, List.map_nil, trimmed]

/-- A document can make another passage appear. -/
theorem passages_divided :
    (passages (render [dividedNote])).length = 2 ∧
      (lines (render [dividedNote]).toList).count dividerLine = 3 ∧
      (passages (render [dividedNote])).map read ≠ [card dividedNote] := by
  have stray : strays dividedNote = 1 := by decide +kernel
  refine ⟨?_, ?_, fun same => ?_⟩
  · rw [length_passages, List.map_singleton, stray]
    rfl
  · rw [count_render (List.cons_ne_nil _ _), List.map_singleton, stray]
    rfl
  · have plain := (read_render_iff [dividedNote]).mp same dividedNote List.mem_cons_self
    have none : strays dividedNote = 0 := List.count_eq_zero.mpr plain.whole
    omega

end NoteAssistant.Passages
