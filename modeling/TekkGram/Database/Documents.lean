import TekkGram.Database.Linearized

/-!
# What becomes of documents

Whatever the operations of several devices interleave, a document that was there or was created is
there at the end with the edits of this document merged into it in their order, unless it was
deleted. No edit is lost, no two creations share a document, and there is no document that nobody
created.
-/

namespace TekkGram

open Interaction Async

/-- A document with these fields merged into it one after another. -/
def Doc.mergeAll (d : Doc) (edits : List Doc) : Doc := edits.foldl Doc.merge d

/-- The fields that an effect merges into a document, if it does. -/
def Effect.edit (path : CollectionPath) (id : String) : Effect → Option Doc
  | .merge path' id' fields => if path' = path ∧ id' = id then some fields else none
  | _ => none

/-- The edits of a document, in their order. -/
def editsOf (path : CollectionPath) (id : String) (effects : List (Nat × Effect)) : List Doc :=
  effects.filterMap fun e => e.2.edit path id

/-- What effects in this order have done to one collection: every document that was there or was
created is kept with its edits, or erased; a document that was created is no other one unless it was
erased; and every document has come from somewhere. -/
structure Accounted (path : CollectionPath) (before after : Collection)
    (effects : List (Nat × Effect)) : Prop where
  kept : ∀ id d, before[id]? = some d ∨ (∃ i, (i, Effect.create path id d) ∈ effects) →
    (∃ j, (j, .erase path id) ∈ effects) ∨
      after[id]? = some (d.mergeAll (editsOf path id effects))
  own : ∀ i id d, (i, Effect.create path id d) ∈ effects →
    (∃ k, (k, .erase path id) ∈ effects) ∨ before[id]? = none ∧
      ∀ j d', (j, .create path id d') ∈ effects → j = i
  origin : ∀ id, id ∈ after → id ∈ before ∨ ∃ i d, (i, Effect.create path id d) ∈ effects
  edited : ∀ id, id ∉ before → (∀ i d, (i, Effect.create path id d) ∉ effects) →
    editsOf path id effects = []

section Accounted

variable {path : CollectionPath} {before after : Collection} {db db' : Database}
  {effects : List (Nat × Effect)} {i : Nat} {e : Effect}

theorem Doc.mergeAll_append (d : Doc) (edits : List Doc) (fields : Doc) :
    d.mergeAll (edits ++ [fields]) = (d.mergeAll edits).merge fields := by
  rw [mergeAll, List.foldl_append]
  rfl

theorem editsOf_snoc (id : String) : editsOf path id (effects ++ [(i, e)]) =
    editsOf path id effects ++ (e.edit path id).toList := by
  rw [editsOf, List.filterMap_append, List.filterMap_cons]
  cases e.edit path id <;> rfl

theorem accounted_nil (before : Collection) : Accounted path before before [] := by
  refine ⟨?_, ?_, fun id hid => .inl hid, fun id _ _ => rfl⟩
  · rintro id d (hd | ⟨i, hd⟩)
    · exact .inr hd
    · cases hd
  · rintro i id d hd
    cases hd

/-- A document that has been there, or has been created, is not created again before an erasure. -/
theorem Accounted.erased_of_new {id : String} (h : Accounted path before after effects)
    (hnew : id ∉ after) {d : Doc}
    (hd : before[id]? = some d ∨ ∃ i, (i, Effect.create path id d) ∈ effects) :
    ∃ j, (j, .erase path id) ∈ effects := by
  refine (h.kept id d hd).resolve_right fun hafter => hnew ?_
  exact Std.ExtTreeMap.mem_iff_isSome_getElem?.mpr (hafter ▸ rfl)

/-- An effect that is no creation and no edit, and leaves the other documents, is accounted for. -/
theorem Accounted.keep (h : Accounted path before after effects)
    (hcreate : ∀ id d, e ≠ .create path id d) (hedit : ∀ id, e.edit path id = none)
    (hafter : ∀ id, after'[id]? = after[id]? ∨ after'[id]? = none ∧ e = .erase path id) :
    Accounted path before after' (effects ++ [(i, e)]) := by
  have hold : ∀ {j id d}, (j, Effect.create path id d) ∈ effects ++ [(i, e)] ↔
      (j, Effect.create path id d) ∈ effects := by
    intro j id d
    simp [(hcreate id d).symm]
  have hedits : ∀ id, editsOf path id (effects ++ [(i, e)]) = editsOf path id effects := by
    intro id
    rw [editsOf_snoc, hedit]
    exact List.append_nil _
  have herased : ∀ id, (∃ j, (j, Effect.erase path id) ∈ effects) →
      ∃ j, (j, Effect.erase path id) ∈ effects ++ [(i, e)] :=
    fun id ⟨j, hj⟩ => ⟨j, List.mem_append_left _ hj⟩
  refine ⟨fun id d hd => ?_, fun j id d hd => ?_, fun id hid => ?_, fun id hid hnone => ?_⟩
  · simp only [hold] at hd
    rw [hedits]
    rcases hafter id with hsame | ⟨-, rfl⟩
    · exact (h.kept id d hd).imp (herased id) fun hkept => hsame.trans hkept
    · exact .inl ⟨i, List.mem_append_right _ (List.mem_singleton_self _)⟩
  · simp only [hold] at hd ⊢
    exact (h.own j id d hd).imp_left (herased id)
  · simp only [hold]
    refine h.origin id ?_
    rw [Std.ExtTreeMap.mem_iff_isSome_getElem?] at hid ⊢
    rcases hafter id with hsame | ⟨hgone, -⟩
    · exact hsame ▸ hid
    · rw [hgone] at hid
      cases hid
  · rw [hedits]
    exact h.edited id hid fun j d hd => hnone j d (hold.mpr hd)

/-- A new document is accounted for by its creation. -/
theorem Accounted.create {id : String} {d : Doc} (h : Accounted path before after effects)
    (hnew : id ∉ after) :
    Accounted path before (after.insert id d) (effects ++ [(i, .create path id d)]) := by
  have hold : ∀ {j id' d'}, (j, Effect.create path id' d') ∈ effects ++ [(i, .create path id d)] ↔
      (j, Effect.create path id' d') ∈ effects ∨ j = i ∧ id' = id ∧ d' = d := by
    intro j id' d'
    simp
  have hedits : ∀ id', editsOf path id' (effects ++ [(i, .create path id d)]) =
      editsOf path id' effects := by
    intro id'
    rw [editsOf_snoc]
    exact List.append_nil _
  have herased : ∀ id', (∃ j, (j, Effect.erase path id') ∈ effects) →
      ∃ j, (j, Effect.erase path id') ∈ effects ++ [(i, .create path id d)] :=
    fun id' ⟨j, hj⟩ => ⟨j, List.mem_append_left _ hj⟩
  have hother : ∀ {id' : String} {d' : Doc}, after[id']? = some d' → id ≠ id' := by
    rintro _ d' hd' rfl
    exact hnew (Std.ExtTreeMap.mem_iff_isSome_getElem?.mpr (hd' ▸ rfl))
  refine ⟨fun id' d' hd' => ?_, fun j id' d' hd' => ?_, fun id' hid' => ?_,
    fun id' hid' hnone => ?_⟩
  · rw [hedits]
    have hkept : before[id']? = some d' ∨ (∃ j, (j, Effect.create path id' d') ∈ effects) →
        (∃ j, (j, Effect.erase path id') ∈ effects ++ [(i, .create path id d)]) ∨
          (after.insert id d)[id']? = some (d'.mergeAll (editsOf path id' effects)) := by
      intro hsource
      refine (h.kept id' d' hsource).imp (herased id') fun hafter => ?_
      rw [Collection.getElem?_insert_of_ne (hother hafter), hafter]
    rcases hd' with hd' | ⟨j, hd'⟩
    · exact hkept (.inl hd')
    · rcases hold.mp hd' with hd' | ⟨rfl, rfl, rfl⟩
      · exact hkept (.inr ⟨j, hd'⟩)
      · -- the new document has no edits yet, or its id has been erased
        by_cases hsource : ∃ d', before[id']? = some d' ∨
            ∃ j, (j, Effect.create path id' d') ∈ effects
        · obtain ⟨d₀, hd₀⟩ := hsource
          exact .inl (herased id' (h.erased_of_new hnew hd₀))
        · rw [h.edited id' (fun hid => ?_) fun j d₀ hd₀ => hsource ⟨d₀, .inr ⟨j, hd₀⟩⟩]
          · exact .inr Collection.getElem?_insert_self
          · obtain ⟨d₀, hd₀⟩ := Option.isSome_iff_exists.mp
              (Std.ExtTreeMap.mem_iff_isSome_getElem?.mp hid)
            exact hsource ⟨d₀, .inl hd₀⟩
  · by_cases hsame : id' = id
    · subst hsame
      by_cases hsource : ∃ d', before[id']? = some d' ∨
          ∃ j, (j, Effect.create path id' d') ∈ effects
      · obtain ⟨d₀, hd₀⟩ := hsource
        exact .inl (herased id' (h.erased_of_new hnew hd₀))
      · refine .inr ⟨Option.eq_none_iff_forall_ne_some.mpr fun d₀ hd₀ => hsource ⟨d₀, .inl hd₀⟩, ?_⟩
        have hlast : ∀ {k d₀}, (k, Effect.create path id' d₀) ∈
            effects ++ [(i, .create path id' d)] → k = i := by
          intro k d₀ hk
          rcases hold.mp hk with hk | ⟨rfl, -, -⟩
          · exact absurd ⟨d₀, .inr ⟨k, hk⟩⟩ hsource
          · rfl
        exact fun k d₀ hk => (hlast hk).trans (hlast hd').symm
    · have hin : ∀ {k d₀}, (k, Effect.create path id' d₀) ∈ effects ++ [(i, .create path id d)] →
          (k, Effect.create path id' d₀) ∈ effects :=
        fun hk => (hold.mp hk).resolve_right fun hk => hsame hk.2.1
      exact (h.own j id' d' (hin hd')).imp (herased id') fun hown =>
        ⟨hown.1, fun k d₀ hk => hown.2 k d₀ (hin hk)⟩
  · rw [Std.ExtTreeMap.mem_insert, Std.LawfulEqCmp.compare_eq_iff_eq] at hid'
    simp only [hold]
    rcases hid' with rfl | hid'
    · exact .inr ⟨i, d, .inr ⟨rfl, rfl, rfl⟩⟩
    · exact (h.origin id' hid').imp_right fun ⟨j, d', hd'⟩ => ⟨j, d', .inl hd'⟩
  · rw [hedits]
    exact h.edited id' hid' fun j d' hd' => hnone j d' (hold.mpr (.inl hd'))

/-- An edit is accounted for as the last one of its document. -/
theorem Accounted.merge {id : String} {d fields : Doc} (h : Accounted path before after effects)
    (hd : after[id]? = some d) :
    Accounted path before (after.insert id (d.merge fields))
      (effects ++ [(i, .merge path id fields)]) := by
  have hmem : id ∈ after := Std.ExtTreeMap.mem_iff_isSome_getElem?.mpr (hd ▸ rfl)
  have hold : ∀ {j id' d'}, (j, Effect.create path id' d') ∈
      effects ++ [(i, .merge path id fields)] ↔ (j, Effect.create path id' d') ∈ effects := by
    intro j id' d'
    simp
  have herased : ∀ id', (∃ j, (j, Effect.erase path id') ∈ effects) →
      ∃ j, (j, Effect.erase path id') ∈ effects ++ [(i, .merge path id fields)] :=
    fun id' ⟨j, hj⟩ => ⟨j, List.mem_append_left _ hj⟩
  have hedits : ∀ id', id' ≠ id → editsOf path id' (effects ++ [(i, .merge path id fields)]) =
      editsOf path id' effects := by
    intro id' hne
    rw [editsOf_snoc, Effect.edit, if_neg fun hsame => hne hsame.2.symm]
    exact List.append_nil _
  refine ⟨fun id' d' hd' => ?_, fun j id' d' hd' => ?_, fun id' hid' => ?_,
    fun id' hid' hnone => ?_⟩
  · simp only [hold] at hd'
    refine (h.kept id' d' hd').imp (herased id') fun hafter => ?_
    by_cases hsame : id' = id
    · subst hsame
      obtain rfl := Option.some.inj (hd.symm.trans hafter)
      rw [editsOf_snoc, Effect.edit, if_pos ⟨rfl, rfl⟩, Collection.getElem?_insert_self]
      exact congrArg some (Doc.mergeAll_append _ _ _).symm
    · rw [Collection.getElem?_insert_of_ne (Ne.symm hsame), hedits id' hsame, hafter]
  · simp only [hold] at hd' ⊢
    exact (h.own j id' d' hd').imp_left (herased id')
  · rw [Std.ExtTreeMap.mem_insert, Std.LawfulEqCmp.compare_eq_iff_eq] at hid'
    simp only [hold]
    rcases hid' with rfl | hid'
    · exact h.origin id hmem
    · exact h.origin id' hid'
  · simp only [hold] at hnone
    by_cases hsame : id' = id
    · subst hsame
      rcases h.origin id' hmem with hbefore | ⟨j, d', hd'⟩
      · exact absurd hbefore hid'
      · exact absurd hd' (hnone j d')
    · rw [hedits id' hsame]
      exact h.edited id' hid' hnone

/-- Effects that set no document of a collection account for its documents. -/
theorem accounted_of_performs (hset : ∀ i id d, (i, Effect.set path id d) ∉ effects)
    (h : Performs Effect.Acts db (effects.map Prod.snd) db') :
    Accounted path (db path) (db' path) effects := by
  induction effects using List.reverseRecOn generalizing db' with
  | nil =>
    obtain rfl := performs_nil.mp h
    exact accounted_nil _
  | append_singleton effects last ih =>
    obtain ⟨i, e⟩ := last
    rw [List.map_append] at h
    obtain ⟨db₁, hpast, hnext⟩ := performs_snoc.mp h
    have hbefore := ih (fun j id d hd => hset j id d (List.mem_append_left _ hd)) hpast
    have hput : ∀ {path' : CollectionPath} {id : String} {d : Doc}, path' ≠ path →
        ∀ id' : String, (db₁.put path' id d path)[id']? = (db₁ path)[id']? := by
      intro path' id d hpath id'
      rw [Database.put, Function.update_of_ne (Ne.symm hpath)]
    cases hnext with
    | @create path' id d hnew =>
      by_cases hpath : path' = path
      · subst hpath
        rw [Database.put, Function.update_self]
        exact hbefore.create hnew
      · refine hbefore.keep (fun id' d' he => hpath ?_) (fun _ => rfl)
          fun id' => .inl (hput hpath id')
        cases he
        rfl
    | @set path' id d =>
      by_cases hpath : path' = path
      · subst hpath
        exact absurd (List.mem_append_right _ (List.mem_singleton_self _)) (hset i id d)
      · exact hbefore.keep nofun (fun _ => rfl) fun id' => .inl (hput hpath id')
    | @merge path' id d fields hd =>
      by_cases hpath : path' = path
      · subst hpath
        rw [Database.put, Function.update_self]
        exact hbefore.merge hd
      · exact hbefore.keep nofun (fun id' => if_neg fun hsame => hpath hsame.1)
          fun id' => .inl (hput hpath id')
    | @erase path' id =>
      refine hbefore.keep nofun (fun _ => rfl) fun id' => ?_
      by_cases hpath : path' = path
      · subst hpath
        rw [Function.update_self, Collection.getElem?_erase]
        by_cases hid : id = id'
        · exact .inr ⟨if_pos hid, by rw [hid]⟩
        · exact .inl (if_neg hid)
      · rw [Function.update_of_ne (Ne.symm hpath)]
        exact .inl rfl
    | absent hnone => exact hbefore.keep nofun (fun _ => rfl) fun _ => .inl rfl

end Accounted

/-- The collection in which an operation creates a document whenever it succeeds. -/
def WriteOperation.creates : WriteOperation → Option CollectionPath
  | sendComment _ _ _ _ _ => some .comments
  | upload _ fileType _ _ _ _ => if fileType = .userImage then none else some .posts
  | uploadMultipleImageFiles _ _ _ _ _ => some .posts
  | _ => none

/-- Only comments are deleted by the operations. -/
def DeletedBy (runs : List (Nat × WriteOperation)) (path : CollectionPath) (id : String) : Prop :=
  path = .comments ∧ ∃ run ∈ runs, run.2 = .deleteComment id

/-- Such an operation succeeds by a creation. -/
theorem WriteOperation.Succeeds.exists_create {op : WriteOperation} {e : Effect}
    (h : op.Succeeds e) {path : CollectionPath} (hcreates : op.creates = some path) :
    ∃ id d, e = .create path id d := by
  cases h with
  | sent id t =>
    cases hcreates
    exact ⟨_, _, rfl⟩
  | posted hfileType lists id t =>
    rw [WriteOperation.creates, if_neg hfileType] at hcreates
    cases hcreates
    exact ⟨_, _, rfl⟩
  | albumPosted lists id t =>
    cases hcreates
    exact ⟨_, _, rfl⟩
  | notFound hlookup =>
    cases op with
    | updateComment | deleteComment | editPost => cases hcreates
    | _ => cases hlookup
  | _ => cases hcreates

/-- Only comments are erased, and only by their deletion. -/
theorem WriteOperation.Succeeds.of_erase {op : WriteOperation} {path : CollectionPath}
    {id : String} (h : op.Succeeds (.erase path id)) :
    path = .comments ∧ op = .deleteComment id := by
  cases h
  exact ⟨rfl, rfl⟩

/-- Only messages are set. -/
theorem WriteOperation.Succeeds.of_set {op : WriteOperation} {path : CollectionPath} {id : String}
    {d : Doc} (h : op.Succeeds (.set path id d)) : ∃ groupChatId, path = .chat groupChatId := by
  cases h
  exact ⟨_, rfl⟩

/-- The effects of the operations account for the documents of a collection. -/
theorem accounted_of_steps {runs : List (Nat × WriteOperation)} {n : Network}
    {moves : List DeviceMove} {P : DevicePool} {path : CollectionPath}
    (hpath : ∀ groupChatId, path ≠ .chat groupChatId)
    (h : Pool.Steps Network.step (fun _ _ _ => True) (operationPool runs n) moves P) :
    Accounted path (n.firestore path) (P.state.firestore path) (effectsIn runs moves) := by
  refine accounted_of_performs (fun i id d hset => ?_) (performs_effectsIn h)
  obtain ⟨run, -, hset⟩ := succeeds_of_mem h hset
  obtain ⟨groupChatId, rfl⟩ := hset.of_set
  exact hpath groupChatId rfl

/-- An erased document is one that an operation deletes. -/
theorem deletedBy_of_erase {runs : List (Nat × WriteOperation)} {n : Network}
    {moves : List DeviceMove} {P : DevicePool} {path : CollectionPath} {id : String} {j : Nat}
    (h : Pool.Steps Network.step (fun _ _ _ => True) (operationPool runs n) moves P)
    (he : (j, Effect.erase path id) ∈ effectsIn runs moves) : DeletedBy runs path id := by
  obtain ⟨run, hrun, herase⟩ := succeeds_of_mem h he
  exact ⟨herase.of_erase.1, run, List.mem_of_getElem? hrun, herase.of_erase.2⟩

end TekkGram
