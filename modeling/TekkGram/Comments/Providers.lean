import Mathlib.Data.List.Perm.Basic
import TekkGram.Notifiers.Comments
import TekkGram.Order.Descending
import TekkGram.Posts.SpecificPost

/-!
# The two providers of a post's comments

Both providers answer a request with the comments of one post. One takes the first documents
of the unordered query and then sorts them, the other orders the query by date and has it
limited by the server.
-/

namespace TekkGram

open Arrangement

/-- The items up to the limit of a request. -/
def RequestForPostAndComments.limited {α : Type} (request : RequestForPostAndComments)
    (xs : List α) : List α :=
  match request.limit with
  | none => xs
  | some n => xs.take n

/-- The items that the limit cuts off. -/
def RequestForPostAndComments.cutOff {α : Type} (request : RequestForPostAndComments)
    (xs : List α) : List α :=
  match request.limit with
  | none => []
  | some n => xs.drop n

section Limit

variable {α β : Type} (request : RequestForPostAndComments)

theorem RequestForPostAndComments.limited_append_cutOff (xs : List α) :
    request.limited xs ++ request.cutOff xs = xs := by
  unfold limited cutOff
  cases request.limit with
  | none => exact List.append_nil xs
  | some n => exact List.take_append_drop n xs

theorem RequestForPostAndComments.map_limited (f : α → β) (xs : List α) :
    (request.limited xs).map f = request.limited (xs.map f) := by
  unfold limited
  cases request.limit with
  | none => rfl
  | some n => exact List.map_take

/-- The limit depends on the length only. -/
theorem RequestForPostAndComments.limited_eq_take {xs ys : List α} (h : ys.length = xs.length) :
    request.limited ys = ys.take (request.limited xs).length := by
  unfold limited
  cases request.limit with
  | none => exact (List.take_of_length_le h.le).symm
  | some n => rw [List.length_take, ← h, ← List.take_eq_take_min]

end Limit

/-- A document as it is in a snapshot once it is committed. -/
def DocSnapshot.committed (doc : DocSnapshot) : QueryDocumentSnapshot := ⟨doc.id, doc.data, false⟩

/-- The comment of a document. -/
def DocSnapshot.comment (doc : DocSnapshot) : Option Comment := Comment.ofJson doc.data doc.id

/-- The committed comments of committed documents are all of them. -/
theorem committedComments_committed (docs : List DocSnapshot) :
    committedComments (docs.map DocSnapshot.committed) = docs.map DocSnapshot.comment := by
  unfold committedComments
  rw [List.filter_eq_self.mpr, List.map_map]
  · rfl
  · intro doc hdoc
    obtain ⟨doc', -, rfl⟩ := List.mem_map.mp hdoc
    rfl

namespace PostComments

/-- The listener of the comments: nothing is emitted when the sort throws. -/
def onComments (dart : ListSort Comment) (request : RequestForPostAndComments)
    (documents : List QueryDocumentSnapshot) : Option (Iterable Comment) :=
  let limitedDocuments := request.limited documents
  let comments := committedComments limitedDocuments
  applySortingFrom dart request comments

/-- The values that `postCommentsProvider` has emitted after these snapshots. -/
def listen (dart : ListSort Comment) (request : RequestForPostAndComments)
    (snapshots : List (List QueryDocumentSnapshot)) : List (Iterable Comment) :=
  snapshots.filterMap (onComments dart request)

theorem listen_append_singleton (dart : ListSort Comment) (request : RequestForPostAndComments)
    (snapshots : List (List QueryDocumentSnapshot)) (docs : List QueryDocumentSnapshot) :
    listen dart request (snapshots ++ [docs]) =
      listen dart request snapshots ++ (onComments dart request docs).toList := by
  unfold listen
  rw [List.filterMap_append]
  cases h : onComments dart request docs <;> simp [h]

end PostComments

/-- The instant of `created_at`, by which Firestore orders the documents that have one. -/
def DocSnapshot.createdAt (doc : DocSnapshot) : Option Timestamp :=
  (doc.data.field FirebaseFieldName.createdAt).asTimestamp

/-- The key of a dated document. -/
def DocSnapshot.date (doc : DocSnapshot) : Timestamp := doc.createdAt.getD 0

/-- The documents of `postCommentsProvider`: those of the post, in the order of their ids. -/
def RequestForPostAndComments.byId (request : RequestForPostAndComments) (docs : Collection) :
    List DocSnapshot :=
  (SendCommentNotifier.commentsOf request.postId).eval docs

/-- The documents of `specificPostWithCommentsProvider`: those of the post that have a date, the
newest first, up to the limit. -/
def RequestForPostAndComments.byDate (request : RequestForPostAndComments) (docs : Collection) :
    List DocSnapshot :=
  let dated := (request.byId docs).filter fun doc => doc.createdAt.isSome
  request.limited (arrange DocSnapshot.date dated)

theorem DocSnapshot.date_of_comment {doc : DocSnapshot} {comment : Comment}
    (h : doc.comment = some comment) : doc.date = comment.createdAt := by
  unfold DocSnapshot.comment at h
  simp only [Comment.ofJson, Option.bind_eq_bind, Option.pure_def, Option.bind_eq_some_iff,
    Option.some.injEq] at h
  obtain ⟨_, -, t, ht, _, -, _, -, _, -, _, -, rfl⟩ := h
  unfold DocSnapshot.date DocSnapshot.createdAt
  rw [ht]
  rfl

theorem map_date_of_map_comment {docs : List DocSnapshot} {comments : List Comment}
    (h : docs.map DocSnapshot.comment = comments.map some) :
    docs.map DocSnapshot.date = comments.map (·.createdAt) := by
  induction docs generalizing comments with
  | nil =>
    obtain rfl : comments = [] := List.map_eq_nil_iff.mp h.symm
    rfl
  | cons doc docs ih =>
    obtain ⟨comment, rest, rfl, hdoc, hdocs⟩ := List.map_eq_cons_iff.mp h.symm
    rw [List.map_cons, List.map_cons, ih hdocs.symm, DocSnapshot.date_of_comment hdoc.symm]

/-- Every document can be read as a comment. -/
def Readable (docs : List DocSnapshot) : Prop := ∀ doc ∈ docs, doc.comment.isSome = true

theorem readable_iff {docs : List DocSnapshot} :
    Readable docs ↔
      ∃ comments : List Comment, docs.map DocSnapshot.comment = comments.map some := by
  constructor
  · intro h
    induction docs with
    | nil => exact ⟨[], rfl⟩
    | cons doc docs ih =>
      obtain ⟨comment, hcomment⟩ := Option.isSome_iff_exists.mp (h doc List.mem_cons_self)
      obtain ⟨comments, hcomments⟩ := ih fun d hd => h d (List.mem_cons_of_mem _ hd)
      exact ⟨comment :: comments, by rw [List.map_cons, List.map_cons, hcomment, hcomments]⟩
  · rintro ⟨comments, h⟩ doc hdoc
    have hmem := List.mem_map_of_mem (f := DocSnapshot.comment) hdoc
    rw [h] at hmem
    obtain ⟨comment, -, hcomment⟩ := List.mem_map.mp hmem
    rw [← hcomment]
    rfl

/-- The limit leaves the newest documents; where their comments are not sorted again, they come
with the newest first. -/
def RequestForPostAndComments.LeavesNewest (request : RequestForPostAndComments)
    (docs : List DocSnapshot) : Prop :=
  Above DocSnapshot.date (request.limited docs) (request.cutOff docs) ∧
    (request.sortByCreatedAt = false → Descending DocSnapshot.date (request.limited docs))

section Shown

variable {dart : ListSort Comment} {request : RequestForPostAndComments}
  {docs newest : List DocSnapshot} {comments : List Comment}

/-- The newest documents, if they are shown like the first ones, are these. -/
theorem leavesNewest_of_shown {read read' : List Comment}
    (hdesc : Descending DocSnapshot.date newest) (hperm : newest.Perm docs)
    (hread : (request.limited docs).map DocSnapshot.comment = read.map some)
    (hread' : (request.limited newest).map DocSnapshot.comment = read'.map some)
    (hshown : (if request.sortByCreatedAt then dart.sort request.compare read else read) =
      if request.sortByCreatedAt then dart.sort request.compare read' else read') :
    request.LeavesNewest docs := by
  have hsplit : newest.Perm (request.limited docs ++ request.cutOff docs) := by
    rwa [request.limited_append_cutOff]
  have hdates := map_date_of_map_comment hread
  have hdates' := map_date_of_map_comment hread'
  rw [request.limited_eq_take hperm.length_eq] at hdates'
  cases hsort : request.sortByCreatedAt with
  | true =>
    simp only [hsort, ite_true] at hshown
    have hsame : read'.Perm read :=
      (dart.perm request.compare read').symm.trans (hshown ▸ dart.perm request.compare read)
    refine ⟨above_of_take_perm hdesc hsplit ?_, fun h => by rw [hsort] at h; cases h⟩
    rw [hdates, hdates']
    exact hsame.map _
  | false =>
    simp only [hsort, Bool.false_eq_true, ite_false] at hshown
    have hsame : (newest.take (request.limited docs).length).map DocSnapshot.date =
        (request.limited docs).map DocSnapshot.date := by
      rw [hdates, hdates', hshown]
    exact ⟨above_of_take_perm hdesc hsplit (List.Perm.of_eq hsame),
      fun _ => (descending_iff_of_map_eq hsame).mp (hdesc.take _)⟩

variable (dart) in
/-- Comments that the limit leaves as the newest are shown alike. -/
theorem shown_of_leavesNewest {read : List Comment}
    (hdesc : Descending DocSnapshot.date newest) (hperm : newest.Perm docs)
    (hread : (request.limited docs).map DocSnapshot.comment = read.map some)
    (h : request.LeavesNewest docs) : ∃ read' : List Comment,
      (request.limited newest).map DocSnapshot.comment = read'.map some ∧
      (if request.sortByCreatedAt then dart.sort request.compare read else read) =
        if request.sortByCreatedAt then dart.sort request.compare read' else read' := by
  have hsplit : newest.Perm (request.limited docs ++ request.cutOff docs) := by
    rwa [request.limited_append_cutOff]
  have htake : (request.limited newest).Perm (request.limited docs) := by
    rw [request.limited_eq_take hperm.length_eq]
    exact take_perm_of_above hdesc hsplit h.1
  cases hsort : request.sortByCreatedAt with
  | true =>
    obtain ⟨read', hread'⟩ := readable_iff.mp fun doc hdoc =>
      readable_iff.mpr ⟨read, hread⟩ doc (htake.mem_iff.mp hdoc)
    refine ⟨read', hread', ?_⟩
    have hsame : read.Perm read' := by
      rw [← List.map_perm_map_iff (Option.some_injective Comment), ← hread, ← hread']
      exact (htake.map _).symm
    -- comments of different dates are never equal in the comparison
    have hnodup : (read'.map (·.createdAt)).Nodup := by
      rw [← map_date_of_map_comment hread', request.limited_eq_take hperm.length_eq]
      exact List.pairwise_map.mpr ((hdesc.take _).imp fun hba => hba.ne')
    have hdistinct : ∀ a ∈ read, ∀ b ∈ read, request.compare a b = .eq → a = b := by
      intro a ha b hb hab
      exact List.inj_on_of_nodup_map hnodup (hsame.mem_iff.mp ha) (hsame.mem_iff.mp hb)
        (RequestForPostAndComments.compare_eq_iff.mp hab)
    simp only [ite_true]
    exact (dart.sort_eq_iff request.compare hdistinct).mpr hsame
  | false =>
    have hfirst : Descending DocSnapshot.date (request.limited newest) := by
      rw [request.limited_eq_take hperm.length_eq]
      exact hdesc.take _
    have hsame : request.limited newest = request.limited docs :=
      hfirst.eq_of_perm (h.2 hsort) htake
    exact ⟨read, hsame ▸ hread, rfl⟩

variable (dart) in
/-- Both sorts of comments succeed alike exactly when the first documents can be read and are the
newest. -/
theorem applySortingFrom_both_iff (hdesc : Descending DocSnapshot.date newest)
    (hperm : newest.Perm docs) :
    (∃ shown : List Comment,
      applySortingFrom dart request ((request.limited docs).map DocSnapshot.comment) =
        some (shown.map some) ∧
      applySortingFrom dart request ((request.limited newest).map DocSnapshot.comment) =
        some (shown.map some)) ↔
      Readable (request.limited docs) ∧ request.LeavesNewest docs := by
  simp only [applySortingFrom_eq_some_iff]
  constructor
  · rintro ⟨shown, ⟨read, hread, hshown⟩, read', hread', hshown'⟩
    exact ⟨readable_iff.mpr ⟨read, hread⟩,
      leavesNewest_of_shown hdesc hperm hread hread' (hshown.symm.trans hshown')⟩
  · rintro ⟨hreadable, hnewest⟩
    obtain ⟨read, hread⟩ := readable_iff.mp hreadable
    obtain ⟨read', hread', hshown⟩ := shown_of_leavesNewest dart hdesc hperm hread hnewest
    exact ⟨_, ⟨read, hread, rfl⟩, read', hread', hshown⟩

end Shown

/-- Upon the same documents both providers emit the same comments, one of them with the post. -/
def ProvidersAgree (dart : ListSort Comment) (request : RequestForPostAndComments)
    (docs : Collection) (post : Post) (earlier : List (List QueryDocumentSnapshot))
    (snapshots : List Snapshot) (snapshot : Snapshot) : Prop :=
  ∃ shown : List Comment,
    PostComments.listen dart request
        (earlier ++ [(request.byId docs).map DocSnapshot.committed]) =
      PostComments.listen dart request earlier ++ [shown.map some] ∧
    (SpecificPostWithComments.listen dart request (snapshots ++ [snapshot])).emitted =
      (SpecificPostWithComments.listen dart request snapshots).emitted ++ [⟨post, shown.map some⟩]

/-- For documents with different dates, and a snapshot upon which the post is there together with
the result of the ordered query, the providers agree exactly if the first documents in the order
of their ids can be read and are the newest. -/
theorem providersAgree_iff (dart : ListSort Comment) (request : RequestForPostAndComments)
    (docs : Collection) (post : Post) (earlier : List (List QueryDocumentSnapshot))
    (snapshots : List Snapshot) (snapshot : Snapshot)
    (hdated : ∀ doc ∈ request.byId docs, doc.createdAt.isSome = true)
    (hdates : ((request.byId docs).map DocSnapshot.date).Nodup)
    (hsettled : snapshot.isSettled = true)
    (hpost : SpecificPostWithComments.HoldsPost (snapshots ++ [snapshot]) post)
    (hcomments : SpecificPostWithComments.shownComments (snapshots ++ [snapshot]) =
      committedComments ((request.byDate docs).map DocSnapshot.committed)) :
    ProvidersAgree dart request docs post earlier snapshots snapshot ↔
      Readable (request.limited (request.byId docs)) ∧
        request.LeavesNewest (request.byId docs) := by
  have hnewest : request.byDate docs =
      request.limited (arrange DocSnapshot.date (request.byId docs)) := by
    unfold RequestForPostAndComments.byDate
    rw [List.filter_eq_self.mpr hdated]
  rw [← applySortingFrom_both_iff dart (descending_arrange hdates) (arrange_perm ..)]
  unfold ProvidersAgree
  simp only [PostComments.listen_append_singleton,
    SpecificPostWithComments.emitted_of_isSettled dart request hsettled hpost, hcomments,
    PostComments.onComments, ← request.map_limited, committedComments_committed, hnewest,
    List.append_cancel_left_eq, Option.toList_eq_singleton_iff, Option.map_eq_some_iff,
    PostWithComments.mk.injEq, true_and, exists_eq_right]

/-- A request with this limit, for the sample post. -/
def newestOnTop (limit : Option Nat) : RequestForPostAndComments := ⟨"p", true, .newestOnTop, limit⟩

/-- Two comments on the sample post, the newer one under the larger id. -/
def twoComments : Collection :=
  ((∅ : Collection).insert "1" (SpecificPostWithComments.commentDocument "1" 1).data).insert "2"
    (SpecificPostWithComments.commentDocument "2" 2).data

/-- Without a limit both providers show the two comments. -/
theorem providersAgree_iff_two_comments :
    ProvidersAgree (.insertion Comment) (newestOnTop none) twoComments
      SpecificPostWithComments.documentPost [] [.post [SpecificPostWithComments.postDocument]]
      (.comments (((newestOnTop none).byDate twoComments).map DocSnapshot.committed)) :=
  (providersAgree_iff _ _ _ _ _ _ _ (by decide +kernel) (by decide +kernel) rfl
    ⟨SpecificPostWithComments.postDocument, [], by decide +kernel, Post.ofJson_postPayload ..⟩
    (by decide +kernel)).mpr (by
      unfold Readable RequestForPostAndComments.LeavesNewest
      decide +kernel)

/-- Limited to one comment, one provider shows the older and the other the newer. -/
theorem not_providersAgree_of_limit :
    ¬ ∀ dart request docs post earlier snapshots snapshot,
      (∀ doc ∈ request.byId docs, doc.createdAt.isSome = true) →
      ((request.byId docs).map DocSnapshot.date).Nodup → snapshot.isSettled = true →
      SpecificPostWithComments.HoldsPost (snapshots ++ [snapshot]) post →
      SpecificPostWithComments.shownComments (snapshots ++ [snapshot]) =
        committedComments ((request.byDate docs).map DocSnapshot.committed) →
      ProvidersAgree dart request docs post earlier snapshots snapshot := by
  intro hall
  obtain ⟨shown, hfirst, hsecond⟩ := hall (.insertion Comment) (newestOnTop (some 1)) twoComments
    SpecificPostWithComments.documentPost [] [.post [SpecificPostWithComments.postDocument]]
    (.comments (((newestOnTop (some 1)).byDate twoComments).map DocSnapshot.committed))
    (by decide +kernel) (by decide +kernel) rfl
    ⟨SpecificPostWithComments.postDocument, [], by decide +kernel, Post.ofJson_postPayload ..⟩
    (by decide +kernel)
  have hids : PostComments.listen (.insertion Comment) (newestOnTop (some 1))
      [((newestOnTop (some 1)).byId twoComments).map DocSnapshot.committed] =
        [[some (SpecificPostWithComments.documentComment "1" 1)]] := by decide +kernel
  have hdates : (SpecificPostWithComments.listen (.insertion Comment) (newestOnTop (some 1))
      ([.post [SpecificPostWithComments.postDocument]] ++
        [.comments (((newestOnTop (some 1)).byDate twoComments).map
          DocSnapshot.committed)])).emitted.getLast? =
      some ⟨SpecificPostWithComments.documentPost,
        [some (SpecificPostWithComments.documentComment "2" 2)]⟩ := by decide +kernel
  rw [List.nil_append, hids] at hfirst
  rw [hsecond, List.getLast?_concat] at hdates
  have hshown : [some (SpecificPostWithComments.documentComment "1" 1)] = shown.map some :=
    List.singleton_inj.mp hfirst
  rw [← hshown] at hdates
  revert hdates
  decide +kernel

end TekkGram
