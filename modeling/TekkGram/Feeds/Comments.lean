import TekkGram.Comments.Sound
import TekkGram.Feeds.Lists
import TekkGram.Records.Stored

/-!
# The comments of a post

The comments screen takes all comments of a post and sorts them, the newest on top. Below a post the
details screen previews three of them: the server is asked for the newest, and the view sorts these
the other way.
-/

namespace TekkGram

open Interaction Arrangement

/-- The comments that `PostCommentsView` asks for. -/
def PostCommentsView.request (post : Post) : RequestForPostAndComments := { postId := post.postId }

/-- The post and comments that `PostDetailsView` asks for. -/
def PostDetailsView.request (post : Post) : RequestForPostAndComments where
  postId := post.postId
  limit := some 3
  sortByCreatedAt := true
  dateSorting := .oldestOnTop

/-- The snapshot of `postCommentsProvider` that has no pending documents. -/
def RequestForPostAndComments.snapshot (request : RequestForPostAndComments) (docs : Collection) :
    List QueryDocumentSnapshot :=
  (request.byId docs).map DocSnapshot.committed

/-- `PostCommentsView`, which asks for one comment at a time. -/
def PostCommentsView.build (comments : Iterable Comment) : Option (ListShown Comment) :=
  ListView.build (.mapped comments)

/-- `CompactCommentsColumn`, which builds the tiles of all comments at once. -/
def CompactCommentsColumn.build (comments : Iterable Comment) : Option (ListShown Comment) :=
  if comments.isEmpty then some .nothing
  else comments.toList.map fun comments => .tiles (comments.map some)

/-- The comments of a post, the newest first and each stored one once. -/
structure Thread (docs : Collection) (postId : PostId) (comments : List Comment) : Prop where
  stored : ∀ c ∈ comments, c.onPostId = postId ∧
    ∃ d, docs[c.id]? = some d ∧ Comment.ofJson d c.id = some c
  every : ∀ id d, docs[id]? = some d → d.field FirebaseFieldName.postId = .string postId →
    ∃ c ∈ comments, c.id = id
  once : (comments.map (·.id)).Nodup
  newestFirst : comments.Pairwise fun a b => b.createdAt ≤ a.createdAt

/-- The newest `n` comments, the oldest of them first. -/
structure Previews (n : Nat) (comments preview : List Comment) : Prop where
  oldestFirst : preview.Pairwise fun a b => a.createdAt ≤ b.createdAt
  length : preview.length = min n comments.length
  newest : ∃ older, comments.Perm (preview ++ older) ∧
    ∀ a ∈ preview, ∀ b ∈ older, b.createdAt ≤ a.createdAt

/-- The most recent snapshots are of this post and these comments. -/
structure SpecificPostWithComments.Shows (snapshots : List Snapshot) (post : QueryDocumentSnapshot)
    (comments : List QueryDocumentSnapshot) : Prop where
  post : lastPost snapshots = some [post]
  comments : lastComments (sinceEmptyPost snapshots) = some comments

section Views

variable {comments : List Comment}

end Views

section Stored

variable {docs : Collection} {postId : PostId}

/-- Every comment of the collection is one that was written. -/
def EveryCommentStored (docs : Collection) : Prop :=
  ∀ id d, docs[id]? = some d → ∃ c : Comment, c.StoredIn id d.field d.field

/-- A document of a post's comments, with its comment. -/
theorem EveryCommentStored.of_mem (h : EveryCommentStored docs) {doc : DocSnapshot}
    (hdoc : doc ∈ (SendCommentNotifier.commentsOf postId).eval docs) :
    docs[doc.id]? = some doc.data ∧ ∃ c : Comment, doc.comment = some c ∧ c.id = doc.id ∧
      c.onPostId = postId ∧ doc.createdAt = some c.createdAt := by
  obtain ⟨hstored, hselects⟩ := Query.mem_eval hdoc
  obtain ⟨c, hc⟩ := h _ _ hstored
  have hpost : doc.data.field FirebaseFieldName.postId = .string postId := by
    simpa [SendCommentNotifier.commentsOf, Query.selects] using hselects
  refine ⟨hstored, c, hc.ofJson, hc.id, Value.string_inj.mp (hc.onPostId.symm.trans hpost), ?_⟩
  rw [DocSnapshot.createdAt, hc.createdAt]
  rfl

theorem EveryCommentStored.readable (h : EveryCommentStored docs) {xs : List DocSnapshot}
    (hxs : xs ⊆ (SendCommentNotifier.commentsOf postId).eval docs) :
    ∃ read : List Comment, xs.map DocSnapshot.comment = read.map some := by
  refine readable_iff.mp fun doc hdoc => ?_
  obtain ⟨-, c, hc, -⟩ := h.of_mem (hxs hdoc)
  rw [hc]
  rfl

/-- All comments of a post are dated. -/
theorem EveryCommentStored.newestFirst_perm (h : EveryCommentStored docs) :
    ((SendCommentNotifier.commentsOf postId).newestFirst docs).Perm
      ((SendCommentNotifier.commentsOf postId).eval docs) := by
  have hall : ((SendCommentNotifier.commentsOf postId).eval docs).filter
      (fun doc => doc.createdAt.isSome) = (SendCommentNotifier.commentsOf postId).eval docs := by
    refine List.filter_eq_self.mpr fun doc hdoc => ?_
    obtain ⟨-, c, -, -, -, hdate⟩ := h.of_mem hdoc
    rw [hdate]
    rfl
  exact (Query.newestFirst_perm _ _).trans (.of_eq hall)

variable {read comments : List Comment}

/-- The comments that are read from a collection are those of the post, in any order. -/
theorem EveryCommentStored.thread (h : EveryCommentStored docs)
    (hread : ((SendCommentNotifier.commentsOf postId).eval docs).map DocSnapshot.comment =
      read.map some) (hperm : comments.Perm read)
    (hnewest : comments.Pairwise fun a b => b.createdAt ≤ a.createdAt) :
    Thread docs postId comments := by
  have hmem : ∀ c, c ∈ comments ↔
      ∃ doc ∈ (SendCommentNotifier.commentsOf postId).eval docs, doc.comment = some c := by
    intro c
    rw [hperm.mem_iff, ← List.mem_map_of_injective (Option.some_injective Comment), ← hread,
      List.mem_map]
  refine ⟨fun c hc => ?_, fun id d hd hpost => ?_, ?_, hnewest⟩
  · obtain ⟨doc, hdoc, hcomment⟩ := (hmem c).mp hc
    obtain ⟨hstored, c', hcomment', hid, hpost, -⟩ := h.of_mem hdoc
    obtain rfl : c' = c := Option.some.inj (hcomment'.symm.trans hcomment)
    exact ⟨hpost, doc.data, hid ▸ hstored, hid ▸ hcomment⟩
  · have hdoc : ⟨id, d⟩ ∈ (SendCommentNotifier.commentsOf postId).eval docs := by
      refine (Query.mem_eval_iff rfl).mpr ⟨hd, ?_⟩
      simp [SendCommentNotifier.commentsOf, Query.selects, hpost]
    obtain ⟨-, c, hcomment, hid, -⟩ := h.of_mem hdoc
    exact ⟨c, (hmem c).mpr ⟨_, hdoc, hcomment⟩, hid⟩
  · have hids : read.map (·.id) =
        ((SendCommentNotifier.commentsOf postId).eval docs).map (·.id) := by
      refine Lazy.Sequence.map_eq_map hread fun doc c hdoc hcomment => ?_
      obtain ⟨-, c', hcomment', hid, -⟩ := h.of_mem hdoc
      obtain rfl : c' = c := Option.some.inj (hcomment'.symm.trans hcomment)
      exact hid
    exact (hperm.map _).nodup_iff.mpr (hids ▸ Query.nodup_eval _ _)

end Stored

section Shown

variable {dart : ListSort Comment} {request : RequestForPostAndComments}

/-- The details screen shows the post with its comments once both have been received. -/
theorem SpecificPostWithComments.Shows.emitted {snapshots : List Snapshot}
    {doc : QueryDocumentSnapshot} {docs : List QueryDocumentSnapshot}
    (h : SpecificPostWithComments.Shows snapshots doc docs) {post : Post}
    (hpost : Post.ofJson doc.id doc.data = some post) {items : Iterable Comment}
    (hitems : applySortingFrom dart request (committedComments docs) = some items) :
    (SpecificPostWithComments.listen dart request snapshots).emitted.getLast? =
      some ⟨post, items⟩ := by
  have hdate := SpecificPostWithComments.upToDate_listen dart request snapshots
  refine hdate.emitted post items ⟨doc, [], h.post, hpost⟩ ?_
  rw [hdate.comments, h.comments]
  exact hitems

end Shown

/-- A post of `ann`. -/
def storedPost : Post := ⟨"p", "ann", "", some 0, [], [], .image, [], [], [], [], []⟩

/-- The document of the post. -/
def storedDoc : Doc :=
  (ImageUploadNotifier.multiplePayload "ann" none .image [] .empty).resolve 0

/-- The post is stored. -/
def posted : World := World.initial.setDoc .posts storedPost.postId storedDoc

end TekkGram
