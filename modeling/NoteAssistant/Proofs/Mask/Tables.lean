import Mathlib.Data.List.Forall2
import NoteAssistant.Proofs.Mask.Likeness
import NoteAssistant.Proofs.Text.Search

/-! # Tables in any order

The tables of documents have no order. `MaskMap.ofDocs_orders` says what the map of the
documents keeps when they are read in other orders: the placeholders, and for each of them a
value from the last document that mentions it. Which one it is depends on the order only where
that document gives several, since its table holds the placeholder both in full and by its
inside.
-/

namespace NoteAssistant

/-- A text in a table that stands for a placeholder: the placeholder in full or its inside. What
    begins like a placeholder is taken for one in full. -/
def Spells (text placeholder : String) : Prop :=
  (maskPrefix <+: text.toList ∧ placeholder = text)
    ∨ (¬ maskPrefix <+: text.toList ∧ placeholder.toList = maskPrefix ++ text.toList ++ [']'])

instance (text placeholder : String) : Decidable (Spells text placeholder) :=
  inferInstanceAs (Decidable (_ ∨ _))

namespace EvidenceDoc

/-- The document gives the value to the placeholder. -/
def Gives (d : EvidenceDoc) (placeholder value : String) : Prop :=
  ∃ text, (text, value) ∈ d.masks ∧ Spells text placeholder

def Mentions (d : EvidenceDoc) (placeholder : String) : Prop := ∃ value, d.Gives placeholder value

/-- The document gives the placeholder no two values. -/
def Settles (d : EvidenceDoc) (placeholder : String) : Prop :=
  ∀ v w, d.Gives placeholder v → d.Gives placeholder w → v = w

/-- The same document with its table in another order. -/
def Reordered (d d' : EvidenceDoc) : Prop :=
  ∃ table, d.masks.Perm table ∧ d' = { d with masks := table }

theorem Reordered.refl (d : EvidenceDoc) : d.Reordered d := ⟨d.masks, .refl _, rfl⟩

theorem Reordered.gives {d d' : EvidenceDoc} (h : d.Reordered d') {p v : String} :
    d'.Gives p v ↔ d.Gives p v := by
  obtain ⟨table, order, rfl⟩ := h
  exact exists_congr fun text => and_congr_left fun _ => order.mem_iff.symm

theorem Reordered.mentions {d d' : EvidenceDoc} (h : d.Reordered d') {p : String} :
    d'.Mentions p ↔ d.Mentions p :=
  exists_congr fun _ => h.gives

end EvidenceDoc

/-- The last of the documents that mention a placeholder. -/
inductive LastMention (p : String) : List EvidenceDoc → EvidenceDoc → Prop where
  | here {doc : EvidenceDoc} {rest : List EvidenceDoc} (mentions : doc.Mentions p)
      (silent : ¬ ∃ later ∈ rest, later.Mentions p) : LastMention p (doc :: rest) doc
  | later (doc : EvidenceDoc) {rest : List EvidenceDoc} {last : EvidenceDoc} :
      LastMention p rest last → LastMention p (doc :: rest) last

/-- The same documents with their tables in other orders. -/
abbrev Reordering : List EvidenceDoc → List EvidenceDoc → Prop :=
  List.Forall₂ EvidenceDoc.Reordered

theorem Reordering.refl (docs : List EvidenceDoc) : Reordering docs docs :=
  List.forall₂_same.mpr fun d _ => .refl d

theorem Reordering.mentions {docs docs' : List EvidenceDoc} (h : Reordering docs docs')
    {p : String} : (∃ doc ∈ docs', doc.Mentions p) ↔ ∃ doc ∈ docs, doc.Mentions p := by
  induction h with
  | nil => simp
  | cons order _ ih => simp only [List.mem_cons, exists_eq_or_imp, order.mentions, ih]

namespace LastMention

variable {p : String} {docs : List EvidenceDoc} {last : EvidenceDoc}

theorem mentions (h : LastMention p docs last) : last.Mentions p := by
  induction h with
  | here mentions _ => exact mentions
  | later _ _ ih => exact ih

theorem exists_mentions (h : LastMention p docs last) : ∃ doc ∈ docs, doc.Mentions p := by
  induction h with
  | here mentions _ => exact ⟨_, List.mem_cons_self, mentions⟩
  | later _ _ ih => exact List.exists_mem_cons_of_exists ih

theorem exists_of_mentions (h : ∃ doc ∈ docs, doc.Mentions p) : ∃ last, LastMention p docs last := by
  induction docs with
  | nil => simp at h
  | cons doc rest ih =>
      by_cases later : ∃ doc ∈ rest, doc.Mentions p
      · obtain ⟨last, found⟩ := ih later
        exact ⟨last, found.later doc⟩
      · have mentions : doc.Mentions p := by simpa [later] using h
        exact ⟨doc, .here mentions later⟩

theorem reordered (h : LastMention p docs last) {docs' : List EvidenceDoc}
    (orders : Reordering docs docs') :
    ∃ last', last.Reordered last' ∧ LastMention p docs' last' := by
  induction h generalizing docs' with
  | here mentions silent =>
      obtain ⟨doc', rest', order, others, rfl⟩ := List.forall₂_cons_left_iff.mp orders
      refine ⟨doc', order, .here (order.mentions.mpr mentions) ?_⟩
      rwa [Reordering.mentions others]
  | later doc _ ih =>
      obtain ⟨doc', rest', _, others, rfl⟩ := List.forall₂_cons_left_iff.mp orders
      obtain ⟨last', order, found⟩ := ih others
      exact ⟨last', order, found.later doc'⟩

/-- The last document that mentions a placeholder may be read in any order. -/
theorem exists_reordering (h : LastMention p docs last) {last' : EvidenceDoc}
    (order : last.Reordered last') :
    ∃ docs', Reordering docs docs' ∧ LastMention p docs' last' := by
  induction h with
  | here mentions silent =>
      exact ⟨_, .cons order (Reordering.refl _), .here (order.mentions.mpr mentions) silent⟩
  | later doc _ ih =>
      obtain ⟨docs', orders, found⟩ := ih order
      exact ⟨doc :: docs', .cons (.refl doc) orders, found.later doc⟩

end LastMention

namespace MaskMap

theorem placeholder_eq_iff {text p : String} : placeholder text = p ↔ Spells text p := by
  unfold placeholder Spells
  by_cases full : maskPrefix <+: text.toList
  · simp [Text.startsWith_iff.mpr full, full, eq_comm]
  · have bare : Text.startsWith maskPrefix text.toList = false := by
      simpa [← Text.startsWith_iff] using full
    rw [← String.toList_inj]
    simp [bare, full, eq_comm]

theorem lookup_filter {key p : String} (other : key ≠ p) (entries : List (String × String)) :
    (entries.filter (·.1 ≠ key)).lookup p = entries.lookup p := by
  induction entries with
  | nil => rfl
  | cons e entries ih =>
      obtain ⟨text, value⟩ := e
      by_cases same : text = key
      · have apart : (p == text) = false := by simpa [same] using Ne.symm other
        rw [List.filter_cons_of_neg (by simpa using same), ih, List.lookup_cons, apart]
      · rw [List.filter_cons_of_pos (by simpa using same), List.lookup_cons, List.lookup_cons, ih]

theorem get?_insert (m : MaskMap) (text value p : String) :
    (m.insert text value).get? p = if placeholder text = p then some value else m.get? p := by
  unfold get? insert
  by_cases here : placeholder text = p
  · simp [here]
  · have apart : (p == placeholder text) = false := by simpa using Ne.symm here
    simp only [List.lookup_cons, apart, lookup_filter here, if_neg here]

/-- The values that entries give to a placeholder, in the order of the entries. -/
def valuesOf (entries : List (String × String)) (p : String) : List String :=
  (entries.filter (placeholder ·.1 = p)).map (·.2)

theorem valuesOf_append (a b : List (String × String)) (p : String) :
    valuesOf (a ++ b) p = valuesOf a p ++ valuesOf b p := by
  simp [valuesOf]

theorem mem_valuesOf {entries : List (String × String)} {p v : String} :
    v ∈ valuesOf entries p ↔ ∃ text, (text, v) ∈ entries ∧ Spells text p := by
  simp [valuesOf, placeholder_eq_iff]

theorem mem_valuesOf_masks {docs : List EvidenceDoc} {p v : String} :
    v ∈ valuesOf (docs.flatMap (·.masks)) p ↔ ∃ doc ∈ docs, doc.Gives p v := by
  simp only [mem_valuesOf, EvidenceDoc.Gives, List.mem_flatMap]
  grind

theorem get?_ofEntries (entries : List (String × String)) (p : String) :
    (ofEntries entries).get? p = (valuesOf entries p).getLast? := by
  induction entries using List.reverseRecOn with
  | nil => rfl
  | append_singleton entries e ih =>
      have whole : ofEntries (entries ++ [e]) = (ofEntries entries).insert e.1 e.2 := by
        simp [ofEntries]
      rw [whole, get?_insert, valuesOf_append, List.getLast?_append, ih]
      by_cases here : placeholder e.1 = p <;> simp [valuesOf, here]

theorem valuesOf_eq_nil {docs : List EvidenceDoc} {p : String} :
    valuesOf (docs.flatMap (·.masks)) p = [] ↔ ¬ ∃ doc ∈ docs, doc.Mentions p := by
  rw [List.eq_nil_iff_forall_not_mem]
  simp only [mem_valuesOf_masks, EvidenceDoc.Mentions]
  grind

/-- The map binds what is mentioned. -/
theorem isSome_ofDocs {docs : List EvidenceDoc} {p : String} :
    ((ofDocs docs).get? p).isSome = true ↔ ∃ doc ∈ docs, doc.Mentions p := by
  rw [ofDocs, get?_ofEntries, Option.isSome_iff_ne_none, ne_eq, List.getLast?_eq_none_iff,
    valuesOf_eq_nil, not_not]

theorem get?_ofDocs {docs : List EvidenceDoc} {p : String} {last : EvidenceDoc}
    (h : LastMention p docs last) : (ofDocs docs).get? p = (valuesOf last.masks p).getLast? := by
  induction h with
  | @here doc rest _ silent =>
      rw [ofDocs, get?_ofEntries, List.flatMap_cons, valuesOf_append, valuesOf_eq_nil.mpr silent,
        List.append_nil]
  | @later doc rest last found ih =>
      -- The rest binds the placeholder, whatever the first document gives.
      have bound : ((ofDocs rest).get? p).isSome = true := isSome_ofDocs.mpr found.exists_mentions
      rw [← ih]
      rw [ofDocs, get?_ofEntries] at bound ⊢
      rw [ofDocs, get?_ofEntries, List.flatMap_cons, valuesOf_append, List.getLast?_append]
      exact Option.or_of_isSome bound

end MaskMap

namespace LastMention

variable {p v : String} {docs : List EvidenceDoc} {last : EvidenceDoc}

/-- Whatever the order, the last document that mentions a placeholder gives the value. -/
theorem gives_of_get? (h : LastMention p docs last) {docs' : List EvidenceDoc}
    (orders : Reordering docs docs') (read : (MaskMap.ofDocs docs').get? p = some v) :
    last.Gives p v := by
  obtain ⟨last', order, found⟩ := h.reordered orders
  rw [MaskMap.get?_ofDocs found] at read
  exact order.gives.mp (MaskMap.mem_valuesOf.mp (List.mem_of_getLast? read))

/-- Each of its values is read in some order, for instance one in which it stands last. -/
theorem exists_get? (h : LastMention p docs last) (given : last.Gives p v) :
    ∃ docs', Reordering docs docs' ∧ (MaskMap.ofDocs docs').get? p = some v := by
  obtain ⟨text, there, spells⟩ := given
  obtain ⟨before, after, table⟩ := List.append_of_mem there
  have order : last.Reordered { last with masks := before ++ after ++ [(text, v)] } := by
    refine ⟨_, ?_, rfl⟩
    rw [table]
    exact List.perm_middle.trans (List.perm_append_singleton _ _).symm
  obtain ⟨docs', orders, found⟩ := h.exists_reordering order
  refine ⟨docs', orders, ?_⟩
  have here : MaskMap.valuesOf [(text, v)] p = [v] := by
    simp [MaskMap.valuesOf, MaskMap.placeholder_eq_iff.mpr spells]
  rw [MaskMap.get?_ofDocs found, MaskMap.valuesOf_append, here]
  exact List.getLast?_concat

end LastMention

namespace MaskMap

theorem nodup_insert {m : MaskMap} (distinct : (m.entries.map (·.1)).Nodup)
    (text value : String) : ((m.insert text value).entries.map (·.1)).Nodup := by
  rw [insert, List.map_cons, List.nodup_cons]
  exact ⟨by simp, distinct.sublist (List.filter_sublist.map _)⟩

theorem nodup_ofEntries (entries : List (String × String)) :
    ((ofEntries entries).entries.map (·.1)).Nodup := by
  induction entries using List.reverseRecOn with
  | nil => exact List.nodup_nil
  | append_singleton entries e ih => simpa [ofEntries] using nodup_insert ih e.1 e.2

theorem SameKeys.size {a b : List (String × String)} (same : (ofEntries a).SameKeys (ofEntries b)) :
    (ofEntries a).size = (ofEntries b).size := by
  have keys : ((ofEntries a).entries.map (·.1)).Perm ((ofEntries b).entries.map (·.1)) := by
    refine (List.perm_ext_iff_of_nodup (nodup_ofEntries a) (nodup_ofEntries b)).mpr fun p => ?_
    rw [← isSome_get?, ← isSome_get?, same p]
  simpa [MaskMap.size] using keys.length_eq

section Orders

variable {docs docs' : List EvidenceDoc}

theorem isSome_reordered (orders : Reordering docs docs') (p : String) :
    ((ofDocs docs').get? p).isSome = true ↔ ∃ doc ∈ docs, doc.Mentions p := by
  rw [isSome_ofDocs, orders.mentions]

theorem size_reordered (orders : Reordering docs docs') :
    (ofDocs docs').size = (ofDocs docs).size := by
  refine SameKeys.size fun p => Bool.eq_iff_iff.mpr ?_
  exact (isSome_reordered orders p).trans isSome_ofDocs.symm

theorem get?_settled {p v : String} {last : EvidenceDoc} (orders : Reordering docs docs')
    (found : LastMention p docs last) (settles : last.Settles p) (given : last.Gives p v) :
    (ofDocs docs').get? p = some v := by
  have bound := (isSome_reordered orders p).mpr found.exists_mentions
  obtain ⟨w, read⟩ := Option.isSome_iff_exists.mp bound
  rw [read, settles w v (found.gives_of_get? orders read) given]

theorem get?_reordered (orders : Reordering docs docs')
    (settles : ∀ p last, LastMention p docs last → last.Settles p) (p : String) :
    (ofDocs docs').get? p = (ofDocs docs).get? p := by
  by_cases mentioned : ∃ doc ∈ docs, doc.Mentions p
  case pos =>
    obtain ⟨last, found⟩ := LastMention.exists_of_mentions mentioned
    obtain ⟨v, given⟩ := found.mentions
    have settled := settles p last found
    rw [get?_settled orders found settled given, get?_settled (.refl docs) found settled given]
  case neg =>
    have unbound := (isSome_reordered orders p).not.mpr mentioned
    have unbound' := isSome_ofDocs.not.mpr mentioned
    rw [Option.not_isSome_iff_eq_none.mp unbound, Option.not_isSome_iff_eq_none.mp unbound']

/-- A value that no order changes is the only one. -/
theorem settles_of_same {p : String} {last : EvidenceDoc} (found : LastMention p docs last)
    (same : ∀ docs', Reordering docs docs' → (ofDocs docs').get? p = (ofDocs docs).get? p) :
    last.Settles p := by
  intro v w left right
  obtain ⟨docs₁, orders₁, read₁⟩ := found.exists_get? left
  obtain ⟨docs₂, orders₂, read₂⟩ := found.exists_get? right
  rw [same docs₁ orders₁] at read₁
  rw [same docs₂ orders₂, read₁] at read₂
  exact Option.some.inj read₂

end Orders

/-- In every order the map binds the placeholders that are mentioned, and over all orders a
    placeholder gets the values that the last document that mentions it gives. If that is one
    value, it is bound in every order; the map is the same in every order if and only if this
    is so for each placeholder. -/
theorem ofDocs_orders (docs : List EvidenceDoc) :
    (∀ docs', Reordering docs docs' → (ofDocs docs').size = (ofDocs docs).size
        ∧ ∀ p, ((ofDocs docs').get? p).isSome = true ↔ ∃ doc ∈ docs, doc.Mentions p)
      ∧ (∀ p last, LastMention p docs last → ∀ v,
        last.Gives p v ↔ ∃ docs', Reordering docs docs' ∧ (ofDocs docs').get? p = some v)
      ∧ (∀ p last, LastMention p docs last → last.Settles p → ∀ v, last.Gives p v →
        ∀ docs', Reordering docs docs' → (ofDocs docs').get? p = some v)
      ∧ ((∀ p last, LastMention p docs last → last.Settles p) ↔
        ∀ docs', Reordering docs docs' → ∀ p, (ofDocs docs').get? p = (ofDocs docs).get? p) := by
  refine ⟨fun docs' orders => ⟨size_reordered orders, isSome_reordered orders⟩,
    fun p last found v => ⟨found.exists_get?, ?_⟩, ?_, ?_, ?_⟩
  · rintro ⟨docs', orders, read⟩
    exact found.gives_of_get? orders read
  · intro p last found settles v given docs' orders
    exact get?_settled orders found settles given
  · intro settles docs' orders p
    exact get?_reordered orders settles p
  · intro same p last found
    exact settles_of_same found fun docs' orders => same docs' orders p

section Notes

def note (table : MaskTable) : EvidenceDoc :=
  ⟨"n", "knowledge", "", "", ⟨⟨2024, 2, 29⟩, 0, 0⟩, none, false, table⟩

/-- The full form in a later document counts, although the inside stands in an earlier one. -/
theorem ofDocs_orders_spelled :
    let early := note [("u1", "Old"), ("u2", "B")]
    let late := note [("u3", "C"), ("$hidden[u1]", "Alice")]
    let others := [note [("u2", "B"), ("u1", "Old")], note [("$hidden[u1]", "Alice"), ("u3", "C")]]
    let key := "$hidden[u1]"
    Reordering [early, late] others ∧ LastMention key [early, late] late
      ∧ late.Settles key ∧ late.Gives key "Alice"
      ∧ (ofDocs others).size = (ofDocs [early, late]).size
      ∧ (ofDocs others).get? key = some "Alice" := by
  intro early late others key
  have orders : Reordering [early, late] others :=
    .cons ⟨_, .swap .., rfl⟩ (.cons ⟨_, .swap .., rfl⟩ .nil)
  have spelled : Spells "$hidden[u1]" key := by decide +kernel
  have apart : ¬ Spells "u3" key := by decide +kernel
  have given : late.Gives key "Alice" := ⟨_, by simp [late, note], spelled⟩
  have settles : late.Settles key := by
    have only (v : String) (gives : late.Gives key v) : v = "Alice" := by
      obtain ⟨text, there, spells⟩ := gives
      simp only [late, note, List.mem_cons, Prod.mk.injEq, List.not_mem_nil, or_false] at there
      rcases there with ⟨rfl, -⟩ | ⟨-, value⟩
      · exact absurd spells apart
      · exact value
    intro v w left right
    rw [only v left, only w right]
  have last : LastMention key [early, late] late := .later early (.here ⟨_, given⟩ (by simp))
  obtain ⟨kept, _, settled, _⟩ := ofDocs_orders [early, late]
  exact ⟨orders, last, settles, given, (kept others orders).1,
    settled key late last settles "Alice" given others orders⟩

/-- One document may give a placeholder two values, and an inside may begin like a
    placeholder. -/
theorem ofDocs_unsettled :
    (¬ ∀ docs docs', Reordering docs docs' → ∀ p, (ofDocs docs').get? p = (ofDocs docs).get? p)
      ∧ ¬ ∀ docs doc inside value, doc.masks = [(inside, value)] →
        (ofDocs (docs ++ [doc])).get? ("$hidden[" ++ inside ++ "]") = some value := by
  constructor
  · intro same
    let clash := [("u1", "Alice"), ("$hidden[u1]", "Bob")]
    let turned := [("$hidden[u1]", "Bob"), ("u1", "Alice")]
    have orders : Reordering [note clash] [note turned] := .cons ⟨_, .swap .., rfl⟩ .nil
    have read : (ofDocs [note clash]).get? "$hidden[u1]" = some "Bob" := by decide +kernel
    have other : (ofDocs [note turned]).get? "$hidden[u1]" = some "Alice" := by decide +kernel
    have equal := same _ _ orders "$hidden[u1]"
    rw [read, other] at equal
    simp at equal
  · intro always
    let full := note [("$hidden[$hidden[x]", "A")]
    have read : (ofDocs ([full] ++ [note [("$hidden[x", "B")]])).get?
        ("$hidden[" ++ "$hidden[x" ++ "]") = some "A" := by decide +kernel
    have equal := always [full] (note [("$hidden[x", "B")]) "$hidden[x" "B" rfl
    rw [read] at equal
    simp at equal

end Notes

end MaskMap

end NoteAssistant
