import Mathlib.Data.List.Nodup
import NoteAssistant.Proofs.Prompt.Layers
import NoteAssistant.Proofs.Text.NameKey

/-! # Which override a prompt takes

Overrides come by language tags in no particular order, and of a tag neither the case of its
letters nor the blanks around it count. Each override that concerns a tag is taken in some order
(`exists_overrideFor_iff`), so the order makes no difference if and only if the overrides that
concern the tag are all the same (`overrideFor_perm_iff`).
-/

namespace NoteAssistant.PromptAssembler

/-- The override is listed under a key, however that is spelled. -/
def Listed (overrides : List (String × PromptOverride)) (key : String) (o : PromptOverride) :
    Prop := ∃ spelled, (spelled, o) ∈ overrides ∧ nameKey spelled = key

/-- The override is listed under the tag, or else, if none is, under its language. -/
inductive Concerns (overrides : List (String × PromptOverride)) (tag : String)
    (o : PromptOverride) : Prop where
  | tag (listed : Listed overrides (nameKey tag) o)
  | language (unlisted : ∀ o', ¬ Listed overrides (nameKey tag) o')
      (listed : Listed overrides (Lang.ofTag tag).tag o)

/-- All overrides that concern the tag are the same. -/
def Settled (overrides : List (String × PromptOverride)) (tag : String) : Prop :=
  ∀ o o', Concerns overrides tag o → Concerns overrides tag o' → o = o'

variable {overrides listed : List (String × PromptOverride)} {key tag title : String}
  {o : PromptOverride}

theorem Listed.of_perm (order : listed.Perm overrides) (h : Listed listed key o) :
    Listed overrides key o := by
  obtain ⟨spelled, mem, same⟩ := h
  exact ⟨spelled, order.mem_iff.mp mem, same⟩

theorem Concerns.of_perm (order : listed.Perm overrides) (h : Concerns listed tag o) :
    Concerns overrides tag o := by
  cases h with
  | tag here => exact .tag (here.of_perm order)
  | language unlisted here =>
      exact .language (fun o' there => unlisted o' (there.of_perm order.symm)) (here.of_perm order)

/-- Tags that differ in more than case and blanks leave nothing open. -/
theorem settled_of_nodup (distinct : (overrides.map (nameKey ·.1)).Nodup) (tag : String) :
    Settled overrides tag := by
  have one {key : String} {o o' : PromptOverride} (left : Listed overrides key o)
      (right : Listed overrides key o') : o = o' := by
    obtain ⟨spelled, mem, same⟩ := left
    obtain ⟨spelled', mem', same'⟩ := right
    exact congrArg Prod.snd (List.inj_on_of_nodup_map distinct mem mem' (same.trans same'.symm))
  intro o o' left right
  cases left with
  | tag left =>
      cases right with
      | tag right => exact one left right
      | language unlisted _ => exact absurd left (unlisted o)
  | language unlisted left =>
      cases right with
      | tag right => exact absurd right (unlisted o')
      | language _ right => exact one left right

/-! ## Looking up -/

theorem listed_of_lookup (found : (ofConfig title overrides).overrides.lookup key = some o) :
    Listed overrides key o := by
  obtain ⟨before, after, whole, -⟩ := List.lookup_eq_some_iff.mp found
  have mem : (key, o) ∈ (ofConfig title overrides).overrides := by simp [whole]
  rw [ofConfig, List.mem_reverse] at mem
  obtain ⟨⟨spelled, o'⟩, there, same⟩ := List.mem_map.mp mem
  obtain ⟨spells, rfl⟩ := Prod.mk.inj same
  exact ⟨spelled, there, spells⟩

theorem lookup_eq_none :
    (ofConfig title overrides).overrides.lookup key = none ↔ ∀ o, ¬ Listed overrides key o := by
  rw [ofConfig, List.lookup_eq_none_iff]
  constructor
  · rintro none o ⟨spelled, mem, rfl⟩
    have apart := none (nameKey spelled, o) (by simpa using ⟨spelled, mem, rfl⟩)
    simp at apart
  · intro none p mem
    obtain ⟨⟨spelled, o⟩, there, rfl⟩ := List.mem_map.mp (List.mem_reverse.mp mem)
    have apart : key ≠ nameKey spelled := fun same => none o ⟨spelled, there, same.symm⟩
    simpa using apart

/-- An override at the end of the list is taken. -/
theorem lookup_last {spelled : String} :
    (ofConfig title (overrides ++ [(spelled, o)])).overrides.lookup (nameKey spelled) = some o := by
  simp [ofConfig]

/-! ## The override for a tag -/

theorem concerns_of_overrideFor (taken : (ofConfig title overrides).overrideFor tag = some o) :
    Concerns overrides tag o := by
  rw [overrideFor] at taken
  cases here : (ofConfig title overrides).overrides.lookup (nameKey tag) with
  | some o' =>
      rw [here, Option.some_or] at taken
      cases taken
      exact .tag (listed_of_lookup here)
  | none =>
      rw [here, Option.none_or] at taken
      exact .language (lookup_eq_none.mp here) (listed_of_lookup taken)

theorem overrideFor_eq_none :
    (ofConfig title overrides).overrideFor tag = none ↔ ∀ o, ¬ Concerns overrides tag o := by
  rw [overrideFor, Option.or_eq_none_iff, lookup_eq_none, lookup_eq_none]
  constructor
  · rintro ⟨unlisted, none⟩ o (here | ⟨_, there⟩)
    · exact unlisted o here
    · exact none o there
  · intro none
    have unlisted : ∀ o, ¬ Listed overrides (nameKey tag) o := fun o here => none o (.tag here)
    exact ⟨unlisted, fun o there => none o (.language unlisted there)⟩

/-- Over all orders of the overrides, those that concern a tag are taken for it. -/
theorem exists_overrideFor_iff :
    (∃ listed, listed.Perm overrides ∧ (ofConfig title listed).overrideFor tag = some o) ↔
      Concerns overrides tag o := by
  constructor
  · rintro ⟨listed, order, taken⟩
    exact (concerns_of_overrideFor taken).of_perm order
  · intro concerns
    have moved {key : String} (here : Listed overrides key o) :
        ∃ listed, listed.Perm overrides
          ∧ (ofConfig title listed).overrides.lookup key = some o := by
      obtain ⟨spelled, mem, rfl⟩ := here
      obtain ⟨before, after, rfl⟩ := List.append_of_mem mem
      refine ⟨before ++ after ++ [(spelled, o)], ?_, lookup_last⟩
      exact (List.perm_append_singleton _ _).trans List.perm_middle.symm
    cases concerns with
    | tag here =>
        obtain ⟨listed, order, found⟩ := moved here
        exact ⟨listed, order, by rw [overrideFor, found, Option.some_or]⟩
    | language unlisted there =>
        obtain ⟨listed, order, found⟩ := moved there
        have silent : (ofConfig title listed).overrides.lookup (nameKey tag) = none :=
          lookup_eq_none.mpr fun o' here => unlisted o' (here.of_perm order)
        exact ⟨listed, order, by rw [overrideFor, silent, Option.none_or, found]⟩

theorem overrideFor_perm (order : listed.Perm overrides) (settled : Settled overrides tag) :
    (ofConfig title listed).overrideFor tag = (ofConfig title overrides).overrideFor tag := by
  cases taken : (ofConfig title overrides).overrideFor tag with
  | none =>
      rw [overrideFor_eq_none] at taken ⊢
      exact fun o concerns => taken o (concerns.of_perm order)
  | some o =>
      have concerns := concerns_of_overrideFor taken
      cases taken' : (ofConfig title listed).overrideFor tag with
      | none => exact absurd (concerns.of_perm order.symm) (overrideFor_eq_none.mp taken' o)
      | some o' =>
          have concerns' := (concerns_of_overrideFor taken').of_perm order
          rw [settled o' o concerns' concerns]

/-- The order makes no difference to a tag if and only if all that concerns it is the same. -/
theorem overrideFor_perm_iff :
    (∀ listed, listed.Perm overrides →
        (ofConfig title listed).overrideFor tag = (ofConfig title overrides).overrideFor tag) ↔
      Settled overrides tag := by
  constructor
  · intro same o o' left right
    obtain ⟨_, order, taken⟩ := exists_overrideFor_iff.mpr left
    obtain ⟨_, order', taken'⟩ := exists_overrideFor_iff.mpr right
    rw [same _ order] at taken
    rw [same _ order', taken] at taken'
    exact Option.some.inj taken'
  · exact fun settled listed order => overrideFor_perm order settled

/-! ## The prompt -/

/-- A prompt depends on the overrides through the one that is taken for its tag. -/
theorem build_congr {a b : PromptAssembler} (title : a.siteTitle = b.siteTitle)
    (taken : a.overrideFor tag = b.overrideFor tag) (kind : PromptKind) (vars : PromptVars)
    (evidence : List EvidenceDoc) (space : Option SpacePrompt) :
    a.build kind tag vars evidence space = b.build kind tag vars evidence space := by
  have same : a.template kind tag space = b.template kind tag space := by
    rw [template, template, taken]
  rw [build, build, values, values, same, title]

/-- A prompt begins with its header, filled in. -/
theorem exists_build_eq (a : PromptAssembler) (kind : PromptKind) (tag : String) (vars : PromptVars)
    (evidence : List EvidenceDoc) (space : Option SpacePrompt) :
    ∃ rest, a.build kind tag vars evidence space =
      substitute
          (trimmedEnd (((a.overrideFor tag).bind (·.header)).getD
            (Template.header (Lang.ofTag tag))))
          (Slot.bindings (a.value (Lang.ofTag tag) vars evidence)) ++ "\n\n" ++ rest := by
  rw [build_eager, template_eq, substitute_intercalate, layers]
  cases space.bind (visible ·.base) with
  | none =>
      simp only [Option.toList_none, List.append_nil, List.cons_append, List.nil_append,
        List.map_cons, String.intercalate_cons_cons]
      exact ⟨_, rfl⟩
  | some base =>
      simp only [Option.toList_some, List.cons_append, List.nil_append, List.map_cons,
        String.intercalate_cons_cons, String.append_assoc]
      exact ⟨_, rfl⟩

end NoteAssistant.PromptAssembler
