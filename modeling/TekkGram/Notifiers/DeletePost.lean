import TekkGram.Interaction.Trace
import TekkGram.Model.Rules

/-!
# DeletePostStateNotifier

A post is deleted in order: its thumbnails, its originals, its comments, its likes, and
last its document. Every step that fails ends the operation with `false`.
-/

namespace TekkGram

open Interaction Async

namespace DeletePostStateNotifier

/-- The query for the documents of a post. -/
def ofPost (postId : PostId) (inCollection : CollectionPath) : Query where
  collection := inCollection
  filters := [(FirebaseFieldName.postId, .string postId)]

/-- `_deleteAllDocuments`: query the documents of a post and delete them in one transaction. -/
def deleteAllDocuments (postId : PostId) (inCollection : CollectionPath) : Action Unit Unit := do
  let docs : List DocSnapshot ← await (.get (ofPost postId inCollection))
  let _ ← await (.commit (docs.map fun doc => .delete inCollection doc.id))

/-- The end of the `try` block, which deletes the post itself. -/
def deleteDocument (post : Post) : Action Unit Bool := do
  let postInCollection : List DocSnapshot ← await (.get (.byId .posts post.postId))
  forEach postInCollection fun doc => await (.delete .posts doc.id)
  return true

/-- The part of the `try` block after the media are deleted. -/
def deleteDocuments (post : Post) : Action Unit Bool := do
  deleteAllDocuments post.postId .comments
  deleteAllDocuments post.postId .likes
  deleteDocument post

/-- The part of the `try` block that deletes the media. -/
def deleteMedia (post : Post) : Action Unit Unit := do
  forEach post.thumbnailStorageId fun element =>
    await (.deleteObject (thumbnailReference post.userId element))
  forEach post.originalFileStorageId fun element =>
    await (.deleteObject ⟨post.userId, post.fileType.collectionName, element⟩)

/-- The `try` block. -/
def deleteAll (post : Post) : Action Unit Bool := do
  await (.setLoading .deletePost true)
  deleteMedia post
  deleteDocuments post

/-- `deletePost`. -/
def deletePost (post : Post) : Action Unit Bool :=
  tryFinally (tryCatch (deleteAll post) fun _ => pure false)
    (await (.setLoading .deletePost false))

end DeletePostStateNotifier

/-- The media objects that a post lists, thumbnails first. -/
def Post.media (post : Post) : List Reference :=
  post.thumbnailStorageId.map (thumbnailReference post.userId) ++
    post.originalFileStorageId.map fun id => ⟨post.userId, post.fileType.collectionName, id⟩

/-- A call deleted this object. -/
@[simp] def DeletedObject (ref : Reference) : (c : Call) → Ans c → Prop
  | .deleteObject ref', _ => ref' = ref
  | _, _ => False

/-- The test for an object deleted at this reference. -/
def deletedObject (ref : Reference) : (c : Call) → Ans c → Bool
  | .deleteObject ref', _ => ref' = ref
  | _, _ => false

theorem deletedObject_iff (ref : Reference) (c : Call) (a : Ans c) :
    deletedObject ref c a = true ↔ DeletedObject ref c a := by
  cases c <;> simp [deletedObject]

instance (ref : Reference) (c : Call) (a : Ans c) : Decidable (DeletedObject ref c a) :=
  decidable_of_iff _ (deletedObject_iff ref c a)

/-- Some call failed. -/
abbrev Failed (tr : List AppEvent) : Prop := Raised (fun _ => True) tr

/-- Some call failed for a reason outside the modelled state. -/
abbrev Unavailable (tr : List AppEvent) : Prop := Threw Exc.unavailable tr

/-- The world without these objects. -/
@[simps] def World.removeAll (w : World) (refs : List Reference) : World :=
  { w with storage := fun ref => if ref ∈ refs then none else w.storage ref }

theorem World.removeAll_nil (w : World) : w.removeAll [] = w := by
  simp [World.removeAll]

theorem World.removeAll_remove (w : World) (refs : List Reference) (ref : Reference) :
    (w.removeAll refs).remove ref = w.removeAll (refs ++ [ref]) := by
  unfold World.removeAll World.remove
  congr 1
  funext ref'
  by_cases h : ref' = ref
  · subst h
    simp
  · simp [h]

namespace DeletePostStateNotifier

/-- How far a deletion of objects got: a prefix, of objects that existed and are pairwise
different, is deleted, and what comes after it was not touched. -/
structure DeletedPrefix (w : World) (refs removed rest : List Reference)
    (tr : List AppEvent) : Prop where
  split : refs = removed ++ rest
  nodup : removed.Nodup
  existed : ∀ ref ∈ removed, (w.storage ref).isSome
  returned : ∀ ref, Returned (DeletedObject ref) tr ↔ ref ∈ removed

/-- What deleting objects one after another can do: delete all of them, or stop at one that
fails for a reason outside the state or because it does not exist any more. -/
theorem forEach_deleteObject_spec {σ : Type} (refs : List Reference) (s : σ) (w : World) :
    (forEach refs fun ref => (await (.deleteObject ref) : Action σ Unit)).wp World.step
      (fun tr out _ w' => ∃ removed rest, DeletedPrefix w refs removed rest tr ∧
        w' = w.removeAll removed ∧
        ((out = .ok () ∧ rest = [] ∧ ¬ Failed tr) ∨
          ∃ e ref rest', out = .error e ∧ rest = ref :: rest' ∧ Failed tr ∧
            (Unavailable tr ∨ w'.storage ref = none))) s w := by
  refine wp_forEach (fun before tr _ w' => w' = w.removeAll before ∧ before.Nodup ∧
    (∀ ref ∈ before, (w.storage ref).isSome) ∧
    (∀ ref, Returned (DeletedObject ref) tr ↔ ref ∈ before) ∧ ¬ Failed tr) ?_ ?_ ?_
  · exact ⟨(w.removeAll_nil).symm, List.nodup_nil, by simp, by simp, by simp⟩
  · rintro before ref after tr s' w' hrefs ⟨rfl, hnodup, hexisted, hreturned, hfailed⟩
    have hdeleted : ∀ e : Exc, DeletedPrefix w refs before (ref :: after)
        (tr ++ [⟨.deleteObject ref, .error e⟩]) := fun e =>
      ⟨hrefs, hnodup, hexisted, by simpa using hreturned⟩
    rw [wp_deleteObject]
    refine ⟨?_, fun hmissing => ?_, fun hexists => ?_⟩
    · exact ⟨before, _, hdeleted _, rfl, .inr ⟨_, ref, after, rfl, rfl, by simp,
        .inl (by simp)⟩⟩
    · exact ⟨before, _, hdeleted _, rfl, .inr ⟨_, ref, after, rfl, rfl, by simp, .inr hmissing⟩⟩
    · have hnew : ref ∉ before ∧ (w.storage ref).isSome := by
        rw [World.removeAll_storage] at hexists
        by_cases h : ref ∈ before
        · simp [h] at hexists
        · exact ⟨h, by simpa only [h, ite_false] using hexists⟩
      rw [ends_ok, World.removeAll_remove]
      refine ⟨rfl, ?_, ?_, fun ref' => ?_, by simpa using hfailed⟩
      · rw [List.nodup_append]
        refine ⟨hnodup, by simp, fun a ha b hb => ?_⟩
        rw [List.mem_singleton.mp hb]
        rintro rfl
        exact hnew.1 ha
      · intro ref' href'
        rcases List.mem_append.mp href' with href' | href'
        · exact hexisted ref' href'
        · rw [List.mem_singleton.mp href']
          exact hnew.2
      · rw [returned_append, hreturned, List.mem_append, List.mem_singleton]
        simp [eq_comm]
  · rintro tr s' w' ⟨rfl, hnodup, hexisted, hreturned, hfailed⟩
    exact ⟨refs, [], ⟨(List.append_nil _).symm, hnodup, hexisted, hreturned⟩, rfl,
      .inl ⟨rfl, rfl, hfailed⟩⟩

/-- The world after a transaction that deleted the documents of a post from a collection. -/
@[simps!] def clear (w : World) (postId : PostId) (path : CollectionPath) : World :=
  w.eraseDocs path (((ofPost postId path).eval (w.firestore path)).map (·.id))

/-- A query for the documents of a post finds every one that is stored. -/
theorem mem_eval_ofPost {postId : PostId} {path : CollectionPath} {docs : Collection}
    {id : String} :
    id ∈ ((ofPost postId path).eval docs).map (·.id) ↔
      ∃ d, docs[id]? = some d ∧ d.field FirebaseFieldName.postId = .string postId := by
  rw [List.mem_map]
  constructor
  · rintro ⟨doc, hdoc, rfl⟩
    obtain ⟨hstored, hselects⟩ := (Query.mem_eval_iff rfl).mp hdoc
    refine ⟨doc.data, hstored, ?_⟩
    simpa [ofPost, Query.selects] using hselects
  · rintro ⟨d, hstored, hfield⟩
    refine ⟨⟨id, d⟩, (Query.mem_eval_iff rfl).mpr ⟨hstored, ?_⟩, rfl⟩
    simpa [ofPost, Query.selects] using hfield

/-- Exactly the documents of other posts remain. -/
theorem clear_getElem? (w : World) (postId : PostId) (path : CollectionPath) (id : String)
    (d : Doc) : ((clear w postId path).firestore path)[id]? = some d ↔
      (w.firestore path)[id]? = some d ∧ d.field FirebaseFieldName.postId ≠ .string postId := by
  rw [clear_firestore, Function.update_self, Collection.getElem?_eraseAll]
  by_cases hid : id ∈ ((ofPost postId path).eval (w.firestore path)).map (·.id)
  · obtain ⟨d', hd', hfield⟩ := mem_eval_ofPost.mp hid
    rw [if_pos hid]
    constructor
    · intro h
      cases h
    · intro h
      obtain rfl : d = d' := Option.some.inj (h.1.symm.trans hd')
      exact absurd hfield h.2
  · rw [if_neg hid]
    constructor
    · intro hd
      exact ⟨hd, fun hfield => hid (mem_eval_ofPost.mpr ⟨d, hd, hfield⟩)⟩
    · intro h
      exact h.1

/-- What deleting the documents of a post can do. -/
theorem deleteAllDocuments_spec (postId : PostId) (path : CollectionPath) (s : Unit) (w : World) :
    (deleteAllDocuments postId path).wp World.step (fun tr out _ w' =>
      (out = .ok () ∧ ¬ Failed tr ∧ (∀ ref, ¬ Returned (DeletedObject ref) tr) ∧
        w' = clear w postId path) ∨
      ∃ e, out = .error e ∧ Failed tr ∧ Unavailable tr ∧
        (∀ ref, ¬ Returned (DeletedObject ref) tr) ∧ w' = w) s w := by
  unfold deleteAllDocuments
  rw [wp_bind, wp_get_query]
  refine ⟨.inr ⟨_, rfl, by simp, by simp, by simp, rfl⟩, ?_⟩
  rw [ends_ok, wp_bind, wp_commit]
  refine ⟨.inr ⟨_, rfl, by simp, by simp, by simp, rfl⟩, fun t => ?_⟩
  rw [ends_ok, wp_pure]
  refine .inl ⟨rfl, by simp, by simp, ?_⟩
  have hwrites := World.foldl_write_delete w t path
    (((ofPost postId path).eval (w.firestore path)).map (·.id))
  rw [List.map_map] at hwrites
  exact hwrites

/-- The two media loops are one loop over the media of the post. -/
theorem wp_deleteMedia {post : Post} {s : Unit} {w : World}
    {Q : List AppEvent → Except Exc Unit → Unit → World → Prop} :
    (deleteMedia post).wp World.step Q s w ↔
      (forEach post.media fun ref => (await (.deleteObject ref) : Action Unit Unit)).wp
        World.step Q s w := by
  rw [Post.media, wp_forEach_append, forEach_map, deleteMedia, wp_bind]
  simp only [forEach_map]

/-- Nothing is left of a post but its media. -/
structure DocumentsGone (w : World) (post : Post) : Prop where
  document : (w.firestore .posts)[post.postId]? = none
  comments : ∀ (id : String) (d : Doc), (w.firestore .comments)[id]? = some d →
    d.field FirebaseFieldName.postId ≠ .string post.postId
  likes : ∀ (id : String) (d : Doc), (w.firestore .likes)[id]? = some d →
    d.field FirebaseFieldName.postId ≠ .string post.postId

/-- The world without the documents of a post. -/
@[simps!] def eraseDocuments (w : World) (post : Post) : World :=
  (clear (clear w post.postId .comments) post.postId .likes).eraseDoc .posts post.postId

section EraseDocuments

variable {w : World} {post : Post}

/-- Of the posts, exactly this one is gone. -/
theorem eraseDocuments_posts (id : PostId) : ((eraseDocuments w post).firestore .posts)[id]? =
    if id = post.postId then none else (w.firestore .posts)[id]? := by
  simp [Collection.getElem?_erase, eq_comm]

/-- Of the comments and likes, exactly those of the post are gone. -/
theorem eraseDocuments_getElem? {path : CollectionPath} (hpath : path = .comments ∨ path = .likes)
    (id : String) (d : Doc) : ((eraseDocuments w post).firestore path)[id]? = some d ↔
      (w.firestore path)[id]? = some d ∧
        d.field FirebaseFieldName.postId ≠ .string post.postId := by
  rw [← clear_getElem?]
  rcases hpath with rfl | rfl <;> simp

/-- Every other collection stays as it was. -/
theorem eraseDocuments_firestore_of_ne {path : CollectionPath} (hposts : path ≠ .posts)
    (hcomments : path ≠ .comments) (hlikes : path ≠ .likes) :
    (eraseDocuments w post).firestore path = w.firestore path := by
  simp [hposts, hcomments, hlikes]

/-- Nothing is left of a post but its media. -/
theorem documentsGone_eraseDocuments : DocumentsGone (eraseDocuments w post) post where
  document := by rw [eraseDocuments_posts, if_pos rfl]
  comments id d hd := ((eraseDocuments_getElem? (.inl rfl) id d).mp hd).2
  likes id d hd := ((eraseDocuments_getElem? (.inr rfl) id d).mp hd).2

/-- The world after a deletion of a post that removed these objects. -/
def afterDeletion (w : World) (post : Post) (removed : List Reference) : World :=
  (eraseDocuments ((w.setLoading .deletePost true).removeAll removed) post).setLoading
    .deletePost false

/-- A deletion leaves no document of its post, and every other post. -/
theorem documents_of_afterDeletion {w' : World} {removed : List Reference}
    (h : w' = afterDeletion w post removed) : DocumentsGone w' post ∧
      ∀ id, id ≠ post.postId → (w'.firestore .posts)[id]? = (w.firestore .posts)[id]? := by
  subst h
  refine ⟨⟨documentsGone_eraseDocuments.document, documentsGone_eraseDocuments.comments,
    documentsGone_eraseDocuments.likes⟩, fun id hid => ?_⟩
  rw [afterDeletion, World.setLoading_firestore, eraseDocuments_posts, if_neg hid]
  rfl

end EraseDocuments

/-- What deleting the post itself can do. -/
theorem deleteDocument_spec (post : Post) (s : Unit) (w : World) :
    (deleteDocument post).wp World.step (fun tr out _ w' =>
      (∀ ref, ¬ Returned (DeletedObject ref) tr) ∧
      ((out = .ok true ∧ ¬ Failed tr ∧ w' = w.eraseDoc .posts post.postId) ∨
        ∃ e, out = .error e ∧ Failed tr ∧ Unavailable tr ∧ w' = w)) s w := by
  unfold deleteDocument
  rw [wp_bind, wp_get_query]
  refine ⟨⟨by simp, .inr ⟨_, rfl, by simp, by simp, rfl⟩⟩, ?_⟩
  rw [ends_ok, show (Query.byId .posts post.postId).collection = .posts from rfl,
    Query.eval_byId]
  cases hd : (w.firestore .posts)[post.postId]? with
  | none =>
    simp only [Option.map_none, Option.toList_none]
    rw [wp_bind, wp_forEach_nil, ends_ok, wp_pure]
    exact ⟨by simp, .inl ⟨rfl, by simp, (World.eraseDoc_of_none hd).symm⟩⟩
  | some d =>
    simp only [Option.map_some, Option.toList_some]
    rw [wp_bind, wp_forEach_cons, wp_delete]
    refine ⟨⟨by simp, .inr ⟨_, rfl, by simp, by simp, rfl⟩⟩, ?_⟩
    rw [ends_ok, wp_forEach_nil, ends_ok, wp_pure]
    exact ⟨by simp, .inl ⟨rfl, by simp, rfl⟩⟩

/-- What deleting the documents can do: delete all of them, or fail before the post is deleted. -/
theorem deleteDocuments_spec (post : Post) (s : Unit) (w : World) :
    (deleteDocuments post).wp World.step (fun tr out _ w' =>
      (∀ ref, ¬ Returned (DeletedObject ref) tr) ∧
      ((out = .ok true ∧ ¬ Failed tr ∧ w' = eraseDocuments w post) ∨
        ∃ e, out = .error e ∧ Failed tr ∧ Unavailable tr ∧ w'.storage = w.storage ∧
          w'.uuids = w.uuids ∧ w'.firestore .posts = w.firestore .posts)) s w := by
  unfold deleteDocuments
  refine wp_bind.mpr (wp_mono (deleteAllDocuments_spec post.postId .comments s w) ?_)
  rintro tr₁ out s₁ w₁ (⟨rfl, hok₁, hquiet₁, rfl⟩ | ⟨e, rfl, hfailed, hun, hquiet, rfl⟩)
  swap
  · exact ⟨hquiet, .inr ⟨e, rfl, hfailed, hun, rfl, rfl, rfl⟩⟩
  refine wp_bind.mpr (wp_mono (deleteAllDocuments_spec post.postId .likes s₁ _) ?_)
  rintro tr₂ out s₂ w₂ (⟨rfl, hok₂, hquiet₂, rfl⟩ | ⟨e, rfl, hfailed, hun, hquiet, rfl⟩)
  swap
  · exact ⟨by simp [hquiet₁, hquiet],
      .inr ⟨e, rfl, by simp [hfailed], by simp [hun], rfl, rfl, by simp⟩⟩
  refine wp_mono (deleteDocument_spec post s₂ _) ?_
  rintro tr₃ out s₃ w₃ ⟨hquiet₃, ⟨rfl, hok₃, rfl⟩ | ⟨e, rfl, hfailed, hun, rfl⟩⟩
  · exact ⟨by simp [hquiet₁, hquiet₂, hquiet₃], .inl ⟨rfl, by simp [hok₁, hok₂, hok₃], rfl⟩⟩
  · exact ⟨by simp [hquiet₁, hquiet₂, hquiet₃],
      .inr ⟨e, rfl, by simp [hfailed], by simp [hun], rfl, rfl, by simp⟩⟩

/-- What `deletePost` can do: delete every object and document of the post, or stop with a
prefix of the media deleted and the post's document in place. -/
theorem deletePost_spec (post : Post) (s : Unit) (w : World) :
    (deletePost post).wp World.step (fun tr out _ w' =>
      ∃ removed rest, DeletedPrefix w post.media removed rest tr ∧
        w'.storage = (w.removeAll removed).storage ∧ w'.uuids = w.uuids ∧
        ((out = .ok true ∧ rest = [] ∧ ¬ Failed tr ∧ w' = afterDeletion w post removed) ∨
          (out = .ok false ∧ Failed tr ∧ w'.firestore .posts = w.firestore .posts ∧
            (Unavailable tr ∨ ∃ ref rest', rest = ref :: rest' ∧ w'.storage ref = none)))) s w := by
  unfold deletePost deleteAll
  rw [wp_tryFinally_tryCatch, wp_bind, wp_setLoading, ends_ok, wp_bind, wp_deleteMedia]
  refine wp_mono (forEach_deleteObject_spec post.media s _) ?_
  rintro tr₁ out s₁ w₁ ⟨removed, rest, hdeleted, rfl, ⟨rfl, rfl, hok₁⟩ |
    ⟨e, ref, rest', rfl, rfl, hfailed, hreason⟩⟩
  · refine wp_mono (deleteDocuments_spec post s₁ _) ?_
    rintro tr₂ out s₂ w₂ ⟨hquiet, ⟨rfl, hok₂, rfl⟩ |
      ⟨e, rfl, hfailed, hun, hstorage, huuids, hposts⟩⟩
    · rw [ends_ok]
      refine ⟨removed, [], ⟨hdeleted.split, hdeleted.nodup, hdeleted.existed, ?_⟩, rfl, rfl,
        .inl ⟨rfl, rfl, by simp [hok₁, hok₂], rfl⟩⟩
      simpa [hquiet] using hdeleted.returned
    · rw [ends_error]
      refine ⟨removed, [], ⟨hdeleted.split, hdeleted.nodup, hdeleted.existed, ?_⟩, hstorage, huuids,
        .inr ⟨rfl, by simp [hfailed], hposts, .inl (by simp [hun])⟩⟩
      simpa [hquiet] using hdeleted.returned
  · rw [ends_error, ends_error]
    refine ⟨removed, _, ⟨hdeleted.split, hdeleted.nodup, hdeleted.existed, ?_⟩, rfl, rfl,
      .inr ⟨rfl, by simp [hfailed], rfl, ?_⟩⟩
    · simpa using hdeleted.returned
    · rcases hreason with hun | hmissing
      · exact .inl (by simp [hun])
      · exact .inr ⟨ref, rest', rfl, hmissing⟩

end DeletePostStateNotifier

end TekkGram
