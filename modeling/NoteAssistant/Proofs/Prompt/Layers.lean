import Mathlib.Data.List.DropRight
import NoteAssistant.Proofs.Prompt.Pieces
import NoteAssistant.Prompt.Assembly

/-! # A prompt and its layers

`PromptAssembler.layers` are the texts that a prompt is stacked from, and `build_layered` says
that the prompt is these texts, each filled in on its own with all values rendered, joined by
blank lines. Tokens contain no line break, so none is made, lost or split at a joint. The last
layer of a body for questions about notes ends with the slot of the passages.
-/

namespace NoteAssistant

theorem all_dropWhile {α : Type} (p : α → Bool) (l : List α) : (l.dropWhile p).all p = l.all p := by
  induction l with
  | nil => rfl
  | cons a l ih => by_cases passes : p a = true <;> simp [passes, ih]

theorem isBlankText_append (a b : String) :
    isBlankText (a ++ b) = (isBlankText a && isBlankText b) := by
  simp [isBlankText]

theorem isBlankText_trimmedEnd (s : String) : isBlankText (trimmedEnd s) = isBlankText s := by
  simp [isBlankText, trimmedEnd, Text.trimEnd, all_dropWhile]

theorem trimmedEnd_append (a : String) {b : String} (solid : isBlankText b = false) :
    trimmedEnd (a ++ b) = a ++ trimmedEnd b := by
  have kept : b.toList.reverse.dropWhile Text.isBlank ≠ [] := by
    intro none
    have blank := all_dropWhile Text.isBlank b.toList.reverse
    rw [none, List.all_reverse] at blank
    exact absurd blank (by simp [show b.toList.all Text.isBlank = false from solid])
  apply String.toList_injective
  simp [trimmedEnd, Text.trimEnd, List.dropWhile_append, kept]

namespace Slot

theorem mem_all (s : Slot) : s ∈ all := by
  cases s <;> decide

/-- The tokens of all slots. -/
def tokens : List (List Char) := all.map (·.token.toList)

theorem tokens_ne_nil : ∀ token ∈ tokens, token ≠ [] := by decide +kernel

theorem tokens_unbroken : ∀ token ∈ tokens, '\n' ∉ token := by decide +kernel

/-- Every slot with a value. -/
def bindings (value : Slot → String) : List (String × String) := all.map fun s => (s.token, value s)

theorem tokens_bindings (value : Slot → String) :
    (Substitution.bound (bindings value)).map (·.1) = tokens := by
  simp [Substitution.tokens_bound, bindings, tokens]

theorem lookup_bindings (value : Slot → String) (s : Slot) :
    (Substitution.bound (bindings value)).lookup s.token.toList = some (value s).toList := by
  cases s <;> rfl

end Slot

section Joints

open Substitution

variable (value : Slot → String)

theorem toList_substitute_slots (template : String) :
    (substitute template (Slot.bindings value)).toList =
      (pieces Slot.tokens template.toList).flatMap (Piece.filled (bound (Slot.bindings value))) := by
  have nonempty : ∀ v ∈ bound (Slot.bindings value), v.1 ≠ [] := fun v mem =>
    Slot.tokens_ne_nil v.1 (Slot.tokens_bindings value ▸ List.mem_map_of_mem mem)
  rw [toList_substitute, fill_eq nonempty, Slot.tokens_bindings]

theorem pieces_blankLine (a b : String) :
    pieces Slot.tokens (a ++ "\n\n" ++ b).toList =
      pieces Slot.tokens a.toList ++ [.letter '\n', .letter '\n'] ++ pieces Slot.tokens b.toList := by
  have joint := pieces_joint Slot.tokens_ne_nil Slot.tokens_unbroken
  have second := joint [] b.toList
  rw [pieces_nil, List.nil_append, List.nil_append] at second
  simp [joint, second]

/-- Between layers no token is made, lost or split. -/
theorem pieces_intercalate (layers : List String) :
    pieces Slot.tokens ("\n\n".intercalate layers).toList =
      [.letter '\n', .letter '\n'].intercalate (layers.map (pieces Slot.tokens ·.toList)) := by
  induction layers with
  | nil => simp [pieces_nil]
  | cons top rest ih =>
      cases rest with
      | nil => simp
      | cons next rest =>
          rw [String.intercalate_cons_cons, pieces_blankLine, ih]
          simp only [List.map_cons, List.intercalate_cons_cons]

theorem substitute_intercalate (layers : List String) :
    substitute ("\n\n".intercalate layers) (Slot.bindings value) =
      "\n\n".intercalate (layers.map (substitute · (Slot.bindings value))) := by
  apply String.toList_injective
  induction layers with
  | nil => simp [toList_substitute_slots, pieces_nil]
  | cons top rest ih =>
      cases rest with
      | nil => simp
      | cons next rest =>
          rw [String.intercalate_cons_cons, toList_substitute_slots, pieces_blankLine,
            List.flatMap_append, List.flatMap_append, ← toList_substitute_slots,
            ← toList_substitute_slots, ih]
          simp [Piece.filled, String.intercalate_cons_cons]

/-- Only the values of slots that stand in a template count. -/
theorem substitute_congr {value value' : Slot → String} {template : String}
    (same : ∀ s : Slot, s.token.toList <:+: template.toList → value s = value' s) :
    substitute template (Slot.bindings value) = substitute template (Slot.bindings value') := by
  apply String.toList_injective
  rw [toList_substitute_slots, toList_substitute_slots]
  refine List.flatMap_congr fun p mem => ?_
  cases p with
  | letter c => rfl
  | slot token =>
      obtain ⟨before, after, cut⟩ := List.append_of_mem mem
      have here := (token?_of_pieces Slot.tokens_ne_nil cut).symm
      obtain ⟨s, -, rfl⟩ := List.mem_map.mp (mem_of_tokenAt? here)
      have stands : s.token.toList <:+: template.toList := by
        refine ⟨joined before, joined after, ?_⟩
        rw [← joined_pieces Slot.tokens_ne_nil template.toList, cut]
        simp [joined, Piece.text]
      rw [Piece.filled, Piece.filled, Slot.lookup_bindings, Slot.lookup_bindings, same s stands]

/-- A slot behind a line break at the end of a text. -/
theorem substitute_last (front : String) (s : Slot) :
    substitute (front ++ "\n" ++ s.token) (Slot.bindings value) =
      substitute front (Slot.bindings value) ++ "\n" ++ value s := by
  have last : pieces Slot.tokens s.token.toList = [.slot s.token.toList] := by
    have filled := Slot.tokens_ne_nil _ (List.mem_map_of_mem s.mem_all)
    have here : tokenAt? Slot.tokens (s.token.toList ++ []) = some s.token.toList := by
      cases s <;> decide +kernel
    simpa [pieces_nil] using pieces_slot filled here
  have joint := pieces_joint Slot.tokens_ne_nil Slot.tokens_unbroken front.toList s.token.toList
  apply String.toList_injective
  simp [toList_substitute_slots, joint, last, Piece.filled, Slot.lookup_bindings]

theorem infix_intercalate {layer : String} {layers : List String} (sep : String)
    (h : layer ∈ layers) : layer.toList <:+: (sep.intercalate layers).toList := by
  induction layers with
  | nil => cases h
  | cons top rest ih =>
      cases rest with
      | nil =>
          obtain rfl := List.mem_singleton.mp h
          simp
      | cons next rest =>
          rw [String.intercalate_cons_cons, String.toList_append]
          rcases List.mem_cons.mp h with rfl | later
          · rw [String.toList_append, List.append_assoc]
            exact (List.prefix_append _ _).isInfix
          · exact (ih later).trans (List.suffix_append _ _).isInfix

end Joints

namespace PromptAssembler

/-- A text from its first blank line on. -/
def fromBlankLine (text : String) : String :=
  String.ofList ((text.toList.tails.find? (['\n', '\n'].isPrefixOf ·)).getD [])

/-- A text up to its last visible character. -/
def toLastVisible (text : String) : String := String.ofList (text.toList.rdropWhile Text.isBlank)

/-- A text with a visible character in it. -/
def visible (text : Option String) : Option String :=
  text.filter fun s => s.toList.any fun c => !Text.isBlank c

/-- The body of a prompt, with the chat prompt of the space in place of its leading paragraph if
    there is one and the kind accepts it. -/
def bodyLayer (kind : PromptKind) (body : String) (space : Option SpacePrompt) : String :=
  match space.bind (visible ·.chat) with
  | some chat => if kind.acceptsChatPrompt then toLastVisible chat ++ fromBlankLine body else body
  | none => body

/-- The layers of a prompt from the top. -/
def layers (a : PromptAssembler) (kind : PromptKind) (tag : String) (space : Option SpacePrompt) :
    List String :=
  let lang := Lang.ofTag tag
  let custom := a.overrideFor tag
  let header := (custom.bind (·.header)).getD (Template.header lang)
  let append := (custom.bind (·.append)).getD (Template.append lang)
  ([header] ++ (space.bind (visible ·.base)).toList
    ++ [bodyLayer kind (Template.body kind lang) space]
    ++ if kind.isConversational then [append] else []).map toLastVisible

/-- What is written for a slot. -/
def value (a : PromptAssembler) (lang : Lang) (vars : PromptVars) (evidence : List EvidenceDoc) :
    Slot → String
  | .timeRange => TimeTable.render vars.now lang
  | .siteTitle => a.siteTitle
  | .symbol => Template.symbolNotice lang
  | .relevantPassage => Passages.render evidence
  | .lang => lang.display
  | .query => vars.query
  | .history => vars.history

theorem toLastVisible_eq (text : String) : toLastVisible text = trimmedEnd text := rfl

theorem visible_eq (text : Option String) : visible text = present text := by
  simp only [visible, present, isBlankText, List.not_all_eq_any_not]

theorem fromBlankLine_eq (text : String) :
    fromBlankLine text =
      match Text.cut? ['\n', '\n'] text.toList with
      | some (_, rest) => "\n\n" ++ String.ofList rest
      | none => "" := by
  rw [fromBlankLine, ← Text.cut?_tails]
  apply String.toList_injective
  cases Text.cut? ['\n', '\n'] text.toList with
  | none => rfl
  | some parts => simp

theorem customBody_eq (kind : PromptKind) (body : String) (space : Option SpacePrompt) :
    customBody kind body space =
      ((space.bind (visible ·.base)).map (toLastVisible · ++ "\n\n")).getD ""
        ++ bodyLayer kind body space := by
  cases space with
  | none => simp [customBody, bodyLayer]
  | some space =>
      simp only [customBody, bodyLayer, Option.bind_some, fromBlankLine_eq, visible_eq,
        toLastVisible_eq]
      cases present space.base <;> cases present space.chat <;> rfl

set_option maxRecDepth 2000 in
theorem isBlankText_body (kind : PromptKind) (lang : Lang) :
    isBlankText (Template.body kind lang) = false := by
  -- A body begins with a letter, so only its first literal is looked at.
  have solid {s : String} {c : Char} {rest : List Char} (first : s.toList = c :: rest)
      (letter : Text.isBlank c = false) : isBlankText s = false := by
    rw [isBlankText, first, List.all_cons, letter, Bool.false_and]
  cases kind <;> unfold Template.body
  case' chat => unfold Template.chatBody
  case' rag => unfold Template.ragBody
  case' summary => unfold Template.summaryBody
  case' enhanceQuery => unfold Template.enhanceQueryBody
  case' journal => unfold Template.journalBody
  case' chunk => unfold Template.chunkBody
  case describeImage =>
    unfold Template.describeImageBody
    cases lang
    case en => rw [isBlankText_append, solid String.toList_ofList rfl, Bool.false_and]
    case zh => exact solid String.toList_ofList rfl
  all_goals
    cases lang <;>
      simp only [String.append_assoc, isBlankText_append, Bool.and_eq_false_iff] <;>
      exact .inl (solid String.toList_ofList rfl)

theorem isBlankText_bodyLayer (kind : PromptKind) (lang : Lang) (space : Option SpacePrompt) :
    isBlankText (bodyLayer kind (Template.body kind lang) space) = false := by
  unfold bodyLayer
  split
  case h_1 chat there =>
    split
    case isTrue =>
      obtain ⟨_, _, kept⟩ := Option.bind_eq_some_iff.mp there
      have solid : isBlankText chat = false := by
        rw [visible_eq] at kept
        simpa using (Option.filter_eq_some_iff.mp kept).2
      rw [isBlankText_append, toLastVisible_eq, isBlankText_trimmedEnd, solid, Bool.false_and]
    case isFalse => exact isBlankText_body kind lang
  case h_2 => exact isBlankText_body kind lang

theorem template_eq (a : PromptAssembler) (kind : PromptKind) (tag : String)
    (space : Option SpacePrompt) :
    a.template kind tag space = "\n\n".intercalate (a.layers kind tag space) := by
  have solid := isBlankText_bodyLayer kind (Lang.ofTag tag) space
  rw [template, customBody_eq, trimmedEnd_append _ solid, layers]
  cases space.bind (visible ·.base) <;> cases kind.isConversational <;>
    simp [toLastVisible_eq, String.append_assoc]

/-- The value of a slot as it is rendered for a template. -/
def valueIn (a : PromptAssembler) (template : String) (lang : Lang) (vars : PromptVars)
    (evidence : List EvidenceDoc) (s : Slot) : String :=
  let stands := Text.contains s.token.toList template.toList
  if (s = .timeRange ∨ s = .relevantPassage) ∧ stands = false then ""
  else a.value lang vars evidence s

theorem values_eq (a : PromptAssembler) (template : String) (lang : Lang) (vars : PromptVars)
    (evidence : List EvidenceDoc) :
    a.values template lang vars evidence =
      Slot.bindings (a.valueIn template lang vars evidence) := by
  have rendered (s : Slot) (lazy : s = .timeRange ∨ s = .relevantPassage) :
      a.valueIn template lang vars evidence s =
        if Text.contains s.token.toList template.toList then a.value lang vars evidence s
        else "" := by
    unfold valueIn
    cases Text.contains s.token.toList template.toList <;> simp [lazy]
  simp only [Slot.bindings, Slot.all, List.map_cons, List.map_nil, rendered .timeRange (.inl rfl),
    rendered .relevantPassage (.inr rfl)]
  rfl

/-- Rendering a value only for a template in which its slot stands makes no difference. -/
theorem build_eager (a : PromptAssembler) (kind : PromptKind) (tag : String) (vars : PromptVars)
    (evidence : List EvidenceDoc) (space : Option SpacePrompt) :
    a.build kind tag vars evidence space =
      substitute (a.template kind tag space)
        (Slot.bindings (a.value (Lang.ofTag tag) vars evidence)) := by
  rw [build, values_eq]
  apply substitute_congr
  intro s stands
  rw [← Text.contains_iff] at stands
  simp [valueIn, stands]

/-- An ending without a blank line stays whatever leading paragraph is replaced. -/
theorem fromBlankLine_ends {text : String} {ending : List Char} (whole : ending <:+ text.toList)
    (parted : ['\n', '\n'] <:+: text.toList) (solid : ¬ ['\n', '\n'] <:+: ending) :
    ending <:+ (fromBlankLine text).toList := by
  have cut := Text.contains_iff.mpr parted
  rw [Text.contains, ← Option.isSome_map (f := fun parts => ['\n', '\n'] ++ parts.2),
    Text.cut?_tails] at cut
  obtain ⟨rest, found⟩ := Option.isSome_iff_exists.mp cut
  have tail : rest <:+ text.toList := (List.mem_tails ..).mp (List.mem_of_find?_eq_some found)
  have blank : ['\n', '\n'] <+: rest := by simpa using List.find?_some found
  rw [fromBlankLine, found, Option.getD_some, String.toList_ofList]
  rcases List.suffix_or_suffix_of_suffix whole tail with shorter | longer
  · exact shorter
  · exact absurd (blank.isInfix.trans longer.isInfix) solid

/-- A body for questions about notes ends with the slot of the passages in a paragraph of its
    own. -/
theorem exists_body (lang : Lang) {kind : PromptKind} (asked : kind = .rag ∨ kind = .journal) :
    ∃ front heading, Template.body kind lang =
      front ++ "\n\n" ++ (heading ++ "\n" ++ Slot.relevantPassage.token) := by
  have ends {front title heading : String} (line : title = heading ++ "\n") (token : String) :
      front ++ "\n\n" ++ title ++ token = front ++ "\n\n" ++ (heading ++ "\n" ++ token) := by
    rw [line, String.append_assoc]
  obtain rfl | rfl := asked <;> unfold Template.body
  case inl =>
    unfold Template.ragBody
    cases lang
    case en => exact ⟨_, "Relevant passages:", ends (by decide +kernel) _⟩
    case zh => exact ⟨_, "相关内容：", ends (by decide +kernel) _⟩
  case inr =>
    unfold Template.journalBody
    cases lang
    case en => exact ⟨_, "Journal entries:", ends (by decide +kernel) _⟩
    case zh => exact ⟨_, "日记：", ends (by decide +kernel) _⟩

/-- It ends so also behind a chat prompt. -/
theorem bodyLayer_ends (lang : Lang) (space : Option SpacePrompt) {kind : PromptKind}
    (asked : kind = .rag ∨ kind = .journal) :
    ∃ front, bodyLayer kind (Template.body kind lang) space =
      front ++ "\n" ++ Slot.relevantPassage.token := by
  let ending := '\n' :: Slot.relevantPassage.token.toList
  obtain ⟨front, heading, body⟩ := exists_body lang asked
  have whole : ending <:+ (Template.body kind lang).toList := by
    refine ⟨front.toList ++ ['\n', '\n'] ++ heading.toList, ?_⟩
    simp [body, ending]
  have rest : ending <:+ (fromBlankLine (Template.body kind lang)).toList := by
    refine fromBlankLine_ends whole ?_ (by decide +kernel)
    refine ⟨front.toList, heading.toList ++ ending, ?_⟩
    simp [body, ending]
  have layer : ending <:+ (bodyLayer kind (Template.body kind lang) space).toList := by
    unfold bodyLayer
    split
    case h_1 chat _ =>
      split
      case isTrue =>
        rw [String.toList_append]
        exact rest.trans (List.suffix_append _ _)
      case isFalse => exact whole
    case h_2 => exact whole
  obtain ⟨above, eq⟩ := layer
  refine ⟨String.ofList above, String.toList_injective ?_⟩
  simp [← eq, ending]

/-- So does a layer, since nothing is trimmed from the slot. -/
theorem exists_layer_ends (a : PromptAssembler) (tag : String) (space : Option SpacePrompt)
    {kind : PromptKind} (asked : kind = .rag ∨ kind = .journal) :
    ∃ front, front ++ "\n" ++ Slot.relevantPassage.token ∈ a.layers kind tag space := by
  obtain ⟨front, ends⟩ := bodyLayer_ends (Lang.ofTag tag) space asked
  have solid : isBlankText Slot.relevantPassage.token = false := by decide +kernel
  have kept : trimmedEnd Slot.relevantPassage.token = Slot.relevantPassage.token := by
    decide +kernel
  have layer := trimmedEnd_append (front ++ "\n") solid
  rw [kept, ← ends, ← toLastVisible_eq] at layer
  refine ⟨front, ?_⟩
  rw [← ends, layers]
  exact List.mem_map.mpr ⟨_, by simp, layer⟩

/-- A prompt is its layers, each filled in on its own with every value rendered, joined by blank
    lines; the passages are in it whenever the prompt is about notes. -/
theorem build_layered (a : PromptAssembler) (kind : PromptKind) (tag : String)
    (vars : PromptVars) (evidence : List EvidenceDoc) (space : Option SpacePrompt) :
    let layers := a.layers kind tag space
    let values := Slot.bindings (a.value (Lang.ofTag tag) vars evidence)
    let template := a.template kind tag space
    let prompt := a.build kind tag vars evidence space
    prompt = "\n\n".intercalate (layers.map (substitute · values))
      ∧ Substitution.pieces Slot.tokens template.toList =
        [.letter '\n', .letter '\n'].intercalate
          (layers.map (Substitution.pieces Slot.tokens ·.toList))
      ∧ prompt = substitute template values
      ∧ (kind = .rag ∨ kind = .journal → (Passages.render evidence).toList <:+: prompt.toList) := by
  intro layers values template prompt
  have eager : prompt = substitute template values := a.build_eager kind tag vars evidence space
  have stacked : template = "\n\n".intercalate layers := a.template_eq kind tag space
  have layered : prompt = "\n\n".intercalate (layers.map (substitute · values)) := by
    rw [eager, stacked, substitute_intercalate]
  refine ⟨layered, ?_, eager, ?_⟩
  · rw [stacked, pieces_intercalate]
  · intro asked
    obtain ⟨front, there⟩ := a.exists_layer_ends tag space asked
    have within := infix_intercalate "\n\n" (List.mem_map_of_mem (f := (substitute · values)) there)
    rw [← layered, substitute_last] at within
    refine List.IsInfix.trans ?_ within
    rw [String.toList_append]
    exact (List.suffix_append _ _).isInfix

/-- Layers with white space at their ends that would make tokens if they were stacked without a
    blank line, the passages of a prompt about notes, and a prompt of a kind that takes neither a
    blank base prompt nor a chat prompt nor the output rules. -/
theorem build_layered_straddling :
    let a := PromptAssembler.ofConfig "Home"
      [("EN ", ⟨some "I am $\x7bsite_title\x7d, $ \n", some "\x7d $\x7bsymbol\x7d\t"⟩),
        ("zh", ⟨some "$\x7bsite_title\x7d, $\x7blang\x7d \n", none⟩)]
    let space : SpacePrompt := ⟨some "\x7blang\x7d of $ \n\n", some "\x7blang\x7d, briefly: $\n"⟩
    let vars : PromptVars := ⟨⟨⟨2024, 2, 29⟩, 0, 0⟩, "$\x7bhistory\x7d", ""⟩
    let layers := a.layers .chat "en" (some space)
    let values := Slot.bindings (a.value .en vars [])
    layers =
        ["I am $\x7bsite_title\x7d, $", "\x7blang\x7d of $",
          "\x7blang\x7d, briefly: $\n\nTime reference:\n$\x7btime_range\x7d",
          "\x7d $\x7bsymbol\x7d"]
      ∧ a.build .chat "en" vars [] (some space) =
        "\n\n".intercalate (layers.map (substitute · values))
      ∧ (PromptKind.rag = .rag ∨ PromptKind.rag = .journal)
      ∧ (Passages.render []).toList <:+: (a.build .rag "en" vars [] (some space)).toList
      ∧ a.build .describeImage "zh-TW" vars [] (some ⟨some " \n", some "Briefly."⟩) =
        "Home, 简体中文\n\n" ++
          "详细描述这张图片，便于之后通过文字检索到它：主体、可见文字、场景以及值得注意的细节。" := by
  intro a space vars layers values
  obtain ⟨layered, _⟩ := build_layered a .chat "en" vars [] (some space)
  obtain ⟨_, _, _, passages⟩ := build_layered a .rag "en" vars [] (some space)
  have english : Lang.ofTag "en" = .en := by decide +kernel
  rw [english] at layered
  exact ⟨by decide +kernel, layered, .inl rfl, passages (.inl rfl), by decide +kernel⟩

end PromptAssembler

end NoteAssistant
