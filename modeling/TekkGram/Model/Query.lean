import TekkGram.Model.Records

/-!
# Collections and queries

A query selects documents of one collection by field equalities and by document id.
Its result lists them in the order of their ids.
-/

namespace TekkGram

/-- A collection without these documents. -/
def Collection.eraseAll (docs : Collection) (ids : List String) : Collection :=
  ids.foldl (fun docs id => docs.erase id) docs

section Collection

variable {docs : Collection} {id id' : String} {d : Doc}

theorem Collection.getElem?_insert :
    (docs.insert id d)[id']? = if id = id' then some d else docs[id']? := by
  rw [Std.ExtTreeMap.getElem?_insert]
  simp only [Std.LawfulEqCmp.compare_eq_iff_eq]

theorem Collection.getElem?_erase :
    (docs.erase id)[id']? = if id = id' then none else docs[id']? := by
  rw [Std.ExtTreeMap.getElem?_erase]
  simp only [Std.LawfulEqCmp.compare_eq_iff_eq]

theorem Collection.getElem?_insert_of_ne (h : id ≠ id') :
    (docs.insert id d)[id']? = docs[id']? := by
  rw [getElem?_insert, if_neg h]

@[simp] theorem Collection.getElem?_insert_self : (docs.insert id d)[id]? = some d := by
  rw [getElem?_insert, if_pos rfl]

theorem Collection.getElem?_eraseAll (docs : Collection) (ids : List String) :
    (docs.eraseAll ids)[id]? = if id ∈ ids then none else docs[id]? := by
  unfold Collection.eraseAll
  induction ids generalizing docs with
  | nil => simp
  | cons id' ids ih =>
    rw [List.foldl_cons, ih, getElem?_erase]
    by_cases h : id = id'
    · simp [h]
    · simp [h, Ne.symm h]

/-- No two documents of a collection are the same in this sense. -/
def Collection.AtMostOne (Same : Doc → Doc → Prop) (docs : Collection) : Prop :=
  ∀ (id id' : String) (d d' : Doc), docs[id]? = some d → docs[id']? = some d' → Same d d' → id = id'

/-- Fewer documents cannot break the bound. -/
theorem Collection.AtMostOne.of_subset {Same : Doc → Doc → Prop} {docs' : Collection}
    (h : docs.AtMostOne Same)
    (hsub : ∀ (id : String) (d : Doc), docs'[id]? = some d → docs[id]? = some d) :
    docs'.AtMostOne Same :=
  fun id id' d d' hd hd' hsame => h id id' d d' (hsub id d hd) (hsub id' d' hd') hsame

/-- A new document keeps the bound exactly when it is the same as no stored document. -/
theorem Collection.AtMostOne.insert_iff {Same : Doc → Doc → Prop}
    (hsymm : ∀ d d', Same d d' → Same d' d) (h : docs.AtMostOne Same) (hnew : id ∉ docs) :
    (Collection.AtMostOne Same (docs.insert id d)) ↔
      ∀ (id' : String) (d' : Doc), docs[id']? = some d' → ¬ Same d' d := by
  constructor
  · intro hone id' d' hd' hsame
    have hne : id ≠ id' := by
      rintro rfl
      rw [Std.ExtTreeMap.getElem?_eq_none hnew] at hd'
      cases hd'
    refine hne (hone id id' d d' getElem?_insert_self ?_ (hsymm _ _ hsame))
    rw [getElem?_insert_of_ne hne, hd']
  · intro hnone id₁ id₂ d₁ d₂ hd₁ hd₂ hsame
    rw [getElem?_insert] at hd₁ hd₂
    by_cases h₁ : id = id₁
    · rw [if_pos h₁] at hd₁
      by_cases h₂ : id = id₂
      · exact h₁.symm.trans h₂
      · rw [if_neg h₂] at hd₂
        cases hd₁
        exact absurd (hsymm _ _ hsame) (hnone id₂ d₂ hd₂)
    · rw [if_neg h₁] at hd₁
      by_cases h₂ : id = id₂
      · rw [if_pos h₂] at hd₂
        cases hd₂
        exact absurd hsame (hnone id₁ d₁ hd₁)
      · rw [if_neg h₂] at hd₂
        exact h id₁ id₂ d₁ d₂ hd₁ hd₂ hsame

end Collection

/-- The collections: four at the top level and one for each conversation. -/
inductive CollectionPath where
  | posts
  | comments
  | likes
  | users
  | chat (groupChatId : ChatGroupId)
  deriving DecidableEq, Repr

/-- A query: a collection, field equalities, an optional document id and limit. -/
structure Query where
  collection : CollectionPath
  filters : List (String × Value) := []
  documentId : Option String := none
  limit : Option Nat := none
  deriving DecidableEq, Repr

/-- A document of a query's result. -/
structure DocSnapshot where
  id : String
  data : Doc
  deriving DecidableEq, Repr

/-- A document matches the equalities and the document id of a query. -/
def Query.selects (q : Query) (id : String) (d : Doc) : Bool :=
  q.filters.all (fun f => d.field f.1 = f.2) && q.documentId.all fun i => id = i

/-- The result of a query: the matching documents in the order of their ids, up to the limit. -/
def Query.eval (q : Query) (docs : Collection) : List DocSnapshot :=
  let matching := (docs.toList.filter fun kv => q.selects kv.1 kv.2).map fun kv => ⟨kv.1, kv.2⟩
  match q.limit with
  | none => matching
  | some n => matching.take n

section Query

variable {q : Query} {docs : Collection} {s : DocSnapshot}

/-- A query returns stored documents that match it. -/
theorem Query.mem_eval (h : s ∈ q.eval docs) :
    docs[s.id]? = some s.data ∧ q.selects s.id s.data = true := by
  have hmem : s ∈ (docs.toList.filter fun kv => q.selects kv.1 kv.2).map fun kv =>
      (⟨kv.1, kv.2⟩ : DocSnapshot) := by
    unfold Query.eval at h
    cases hl : q.limit with
    | none => simpa only [hl] using h
    | some n => exact List.mem_of_mem_take (by simpa only [hl] using h)
  obtain ⟨⟨id, d⟩, hkv, rfl⟩ := List.mem_map.mp hmem
  obtain ⟨hstored, hselects⟩ := List.mem_filter.mp hkv
  exact ⟨Std.ExtTreeMap.mem_toList_iff_getElem?_eq_some.mp hstored, hselects⟩

/-- Without a limit a query returns every matching document. -/
theorem Query.mem_eval_iff (hlimit : q.limit = none) :
    s ∈ q.eval docs ↔ docs[s.id]? = some s.data ∧ q.selects s.id s.data = true := by
  refine ⟨Query.mem_eval, fun ⟨hstored, hselects⟩ => ?_⟩
  simp only [Query.eval, hlimit]
  refine List.mem_map.mpr ⟨(s.id, s.data), List.mem_filter.mpr ⟨?_, hselects⟩, rfl⟩
  exact Std.ExtTreeMap.mem_toList_iff_getElem?_eq_some.mpr hstored

/-- No id occurs twice in a result. -/
theorem Query.nodup_eval (q : Query) (docs : Collection) : ((q.eval docs).map (·.id)).Nodup := by
  have hpairs : (docs.toList.filter fun kv => q.selects kv.1 kv.2).Pairwise
      fun a b => a.1 ≠ b.1 := by
    refine (Std.ExtTreeMap.distinct_keys_toList.imp ?_).filter _
    intro a b hab he
    exact hab (by rw [he]; exact Std.ReflCmp.compare_self)
  have hall : (((docs.toList.filter fun kv => q.selects kv.1 kv.2).map fun kv =>
      (⟨kv.1, kv.2⟩ : DocSnapshot)).map (·.id)).Nodup := by
    rw [List.map_map]
    exact List.pairwise_map.mpr hpairs
  unfold Query.eval
  cases q.limit with
  | none => exact hall
  | some n => exact hall.sublist ((List.take_sublist n _).map _)

/-- A query that may return a document finds some if one matches. -/
theorem Query.eval_eq_nil_iff (hlimit : q.limit ≠ some 0) : q.eval docs = [] ↔
    ∀ (id : String) (d : Doc), docs[id]? = some d → q.selects id d = false := by
  have hnil : q.eval docs = [] ↔ (docs.toList.filter fun kv => q.selects kv.1 kv.2) = [] := by
    unfold Query.eval
    cases hl : q.limit with
    | none => simp
    | some n =>
      have hn : n ≠ 0 := by
        rintro rfl
        exact hlimit hl
      simp [List.take_eq_nil_iff, hn]
  rw [hnil, List.filter_eq_nil_iff]
  simp only [Prod.forall, Std.ExtTreeMap.mem_toList_iff_getElem?_eq_some, Bool.not_eq_true]

/-- A query limited to one document returns the first match, if there is one. -/
theorem Query.eval_of_limit_one (hlimit : q.limit = some 1) :
    q.eval docs = [] ∨ ∃ s, q.eval docs = [s] := by
  have hlength : (q.eval docs).length ≤ 1 := by
    simp only [Query.eval, hlimit, List.length_take]
    exact Nat.min_le_left ..
  match h : q.eval docs with
  | [] => exact .inl rfl
  | [s] => exact .inr ⟨s, rfl⟩
  | _ :: _ :: _ =>
    rw [h] at hlength
    simp at hlength

/-- The first match is the one with the least id. -/
theorem Query.eval_eq_singleton_iff (hlimit : q.limit = some 1) : q.eval docs = [s] ↔
    docs[s.id]? = some s.data ∧ q.selects s.id s.data = true ∧
      ∀ (id : String) (d : Doc), docs[id]? = some d → q.selects id d = true →
        compare s.id id ≠ .gt := by
  have hmem : ∀ (id : String) (d : Doc),
      (id, d) ∈ docs.toList.filter (fun kv => q.selects kv.1 kv.2) ↔
        docs[id]? = some d ∧ q.selects id d = true := by
    intro id d
    rw [List.mem_filter, Std.ExtTreeMap.mem_toList_iff_getElem?_eq_some]
  have hordered : (docs.toList.filter fun kv => q.selects kv.1 kv.2).Pairwise
      fun a b => compare a.1 b.1 = .lt := Std.ExtTreeMap.ordered_keys_toList.filter _
  have heval : q.eval docs = ((docs.toList.filter fun kv => q.selects kv.1 kv.2).map
      fun kv => (⟨kv.1, kv.2⟩ : DocSnapshot)).take 1 := by
    simp only [Query.eval, hlimit]
  rw [heval]
  generalize docs.toList.filter (fun kv => q.selects kv.1 kv.2) = matching at hmem hordered
  cases matching with
  | nil =>
    refine iff_of_false (by simp) ?_
    rintro ⟨hstored, hselects, -⟩
    exact List.not_mem_nil ((hmem s.id s.data).mpr ⟨hstored, hselects⟩)
  | cons kv rest =>
    have hfirst := List.pairwise_cons.mp hordered
    have hkv := (hmem kv.1 kv.2).mp List.mem_cons_self
    rw [List.map_cons, List.take_succ_cons, List.take_zero, List.singleton_inj]
    constructor
    · rintro rfl
      refine ⟨hkv.1, hkv.2, fun id d hd hselects hgt => ?_⟩
      rcases List.mem_cons.mp ((hmem id d).mpr ⟨hd, hselects⟩) with rfl | hrest
      · exact absurd (Std.ReflCmp.compare_self.symm.trans hgt) (by decide)
      · exact absurd ((hfirst.1 (id, d) hrest).symm.trans hgt) (by decide)
    · rintro ⟨hstored, hselects, hleast⟩
      rcases List.mem_cons.mp ((hmem s.id s.data).mpr ⟨hstored, hselects⟩) with hs | hrest
      · rw [← hs]
      · -- a match after the first one would not be the least
        have hlt : compare kv.1 s.id = .lt := hfirst.1 _ hrest
        exact absurd (Std.OrientedCmp.gt_of_lt hlt) (hleast kv.1 kv.2 hkv.1 hkv.2)

/-- The result depends only on the documents that match. -/
theorem Query.eval_congr {docs' : Collection} (hlimit : q.limit = some 1)
    (h : ∀ (id : String) (d : Doc), q.selects id d = true →
      (docs[id]? = some d ↔ docs'[id]? = some d)) : q.eval docs = q.eval docs' := by
  have hone : q.limit ≠ some 0 := by simp [hlimit]
  have hcases : q.eval docs = [] ∨ ∃ s, q.eval docs = [s] := Query.eval_of_limit_one hlimit
  rcases hcases with hnil | ⟨s, hs⟩
  · rw [hnil, eq_comm, Query.eval_eq_nil_iff hone]
    intro id d hd
    by_contra hselects
    rw [Bool.not_eq_false] at hselects
    have hnone := (Query.eval_eq_nil_iff hone).mp hnil id d ((h id d hselects).mpr hd)
    exact absurd (hnone.symm.trans hselects) (by decide)
  · rw [hs, eq_comm, Query.eval_eq_singleton_iff hlimit]
    obtain ⟨hstored, hselects, hleast⟩ := (Query.eval_eq_singleton_iff hlimit).mp hs
    exact ⟨(h _ _ hselects).mp hstored, hselects,
      fun id d hd hmatch => hleast id d ((h id d hmatch).mpr hd) hmatch⟩

/-- The query for one document by its id. -/
def Query.byId (path : CollectionPath) (id : String) : Query :=
  { collection := path, documentId := some id, limit := some 1 }

/-- A query by document id returns that document, if it is stored. -/
theorem Query.eval_byId (path : CollectionPath) (id : String) (docs : Collection) :
    (Query.byId path id).eval docs = (docs[id]?.map fun d => (⟨id, d⟩ : DocSnapshot)).toList := by
  have hmem : ∀ s ∈ (Query.byId path id).eval docs, s.id = id ∧ docs[id]? = some s.data := by
    intro s hs
    obtain ⟨hstored, hselects⟩ := Query.mem_eval hs
    have hid : s.id = id := by simpa [Query.byId, Query.selects] using hselects
    exact ⟨hid, hid ▸ hstored⟩
  cases hd : docs[id]? with
  | none =>
    refine List.eq_nil_iff_forall_not_mem.mpr fun s hs => ?_
    obtain ⟨-, hstored⟩ := hmem s hs
    cases hd.symm.trans hstored
  | some d =>
    have hselected : (id, d) ∈ docs.toList.filter fun kv =>
        (Query.byId path id).selects kv.1 kv.2 := by
      refine List.mem_filter.mpr ⟨Std.ExtTreeMap.mem_toList_iff_getElem?_eq_some.mpr hd, ?_⟩
      simp [Query.byId, Query.selects]
    cases hl : docs.toList.filter fun kv => (Query.byId path id).selects kv.1 kv.2 with
    | nil =>
      rw [hl] at hselected
      cases hselected
    | cons kv rest =>
      have heval : (Query.byId path id).eval docs = [⟨kv.1, kv.2⟩] := by
        change ((docs.toList.filter fun kv =>
          (Query.byId path id).selects kv.1 kv.2).map _).take 1 = _
        rw [hl]
        rfl
      obtain ⟨hid, hstored⟩ := hmem ⟨kv.1, kv.2⟩ (heval ▸ List.mem_singleton.mpr rfl)
      rw [heval]
      obtain rfl : kv.2 = d := Option.some.inj (hstored.symm.trans hd)
      obtain rfl : kv.1 = id := hid
      rfl

end Query

end TekkGram
