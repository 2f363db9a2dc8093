import Mathlib.Data.List.DropRight
import TekkGram.Comments.Sorting
import TekkGram.Interaction.Since

/-!
# One post with its comments

The details screen listens to two streams of snapshots, one of the post and one of its
comments. Both write the variables that the next value is built from. An empty post snapshot
clears them both, so that a post which appears after it is shown with the comments that
have arrived since, and not with those that were there before.
-/

namespace TekkGram

/-- A document of a snapshot: its data, and whether a write to it is still under way. -/
structure QueryDocumentSnapshot where
  id : String
  data : Doc
  hasPendingWrites : Bool
  deriving DecidableEq, Repr

/-- A post and the comments shown with it. -/
structure PostWithComments where
  post : Post
  comments : Iterable Comment
  deriving DecidableEq, Repr

/-- A snapshot of the post or of its comments. -/
inductive Snapshot where
  | post (docs : List QueryDocumentSnapshot)
  | comments (docs : List QueryDocumentSnapshot)
  deriving DecidableEq, Repr

/-- The documents of a post snapshot that is not pending. -/
def Snapshot.settledPost : Snapshot → Option (List QueryDocumentSnapshot)
  | .post (doc :: docs) => if doc.hasPendingWrites then none else some (doc :: docs)
  | .post [] => some []
  | .comments _ => none

/-- A snapshot other than that of a pending post. -/
def Snapshot.isSettled : Snapshot → Bool
  | .post (doc :: _) => !doc.hasPendingWrites
  | .post [] | .comments _ => true

/-- The documents of a comments snapshot. -/
def Snapshot.commentDocs : Snapshot → Option (List QueryDocumentSnapshot)
  | .comments docs => some docs
  | .post _ => none

/-- The comments of a snapshot that are not pending; each is decoded on access. -/
def committedComments (docs : List QueryDocumentSnapshot) : Iterable Comment :=
  (docs.filter fun doc => !doc.hasPendingWrites).map fun doc => Comment.ofJson doc.data doc.id

namespace SpecificPostWithComments

/-- The variables of the provider, and the values it has emitted. -/
structure State where
  post : Option Post
  comments : Option (Iterable Comment)
  emitted : List PostWithComments
  deriving DecidableEq, Repr

/-- The state in which the provider starts to listen. -/
def State.initial : State := ⟨none, none, []⟩

section Provider

variable (dart : ListSort Comment) (request : RequestForPostAndComments)

/-- `notify`: nothing is emitted without a post, or when the sort throws. -/
def State.notify (s : State) : State :=
  match s.post with
  | none => s
  | some localPost =>
    match applySortingFrom dart request (s.comments.getD []) with
    | none => s
    | some outputComments => { s with emitted := s.emitted ++ [⟨localPost, outputComments⟩] }

/-- The listener of the post. -/
def State.onPost (s : State) (docs : List QueryDocumentSnapshot) : State :=
  match docs with
  | [] => { s with post := none, comments := none }.notify dart request
  | doc :: _ =>
    if doc.hasPendingWrites then s
    else
      match Post.ofJson doc.id doc.data with
      | none => s
      | some post => { s with post := some post }.notify dart request

/-- The listener of the comments. -/
def State.onComments (s : State) (docs : List QueryDocumentSnapshot) : State :=
  { s with comments := some (committedComments docs) }.notify dart request

/-- The listener of a snapshot. -/
def State.receive (s : State) : Snapshot → State
  | .post docs => s.onPost dart request docs
  | .comments docs => s.onComments dart request docs

/-- The provider after these snapshots. -/
def listen (snapshots : List Snapshot) : State :=
  snapshots.foldl (State.receive dart request) .initial

@[simp] theorem listen_nil : listen dart request [] = .initial := rfl

theorem listen_append_singleton (snapshots : List Snapshot) (snapshot : Snapshot) :
    listen dart request (snapshots ++ [snapshot]) =
      (listen dart request snapshots).receive dart request snapshot := List.foldl_concat ..

end Provider

/-- The most recent post snapshot that was not pending. -/
def lastPost (snapshots : List Snapshot) : Option (List QueryDocumentSnapshot) :=
  (snapshots.filterMap Snapshot.settledPost).getLast?

/-- The most recent comments snapshot. -/
def lastComments (snapshots : List Snapshot) : Option (List QueryDocumentSnapshot) :=
  (snapshots.filterMap Snapshot.commentDocs).getLast?

/-- The snapshots since the last empty post snapshot, all if there was none. -/
def sinceEmptyPost (snapshots : List Snapshot) : List Snapshot :=
  snapshots.rtakeWhile fun snapshot => snapshot ≠ .post []

/-- The comments that are shown once the post is there. -/
def shownComments (snapshots : List Snapshot) : Iterable Comment :=
  ((lastComments (sinceEmptyPost snapshots)).map committedComments).getD []

section Last

variable (snapshots : List Snapshot) (snapshot : Snapshot)

theorem lastPost_append :
    lastPost (snapshots ++ [snapshot]) = snapshot.settledPost.or (lastPost snapshots) :=
  Interaction.getLast?_filterMap_snoc ..

theorem lastComments_append :
    lastComments (snapshots ++ [snapshot]) = snapshot.commentDocs.or (lastComments snapshots) :=
  Interaction.getLast?_filterMap_snoc ..

/-- An empty post snapshot starts anew. -/
theorem sinceEmptyPost_empty : sinceEmptyPost (snapshots ++ [.post []]) = [] :=
  List.rtakeWhile_concat_neg _ _ _ (by simp)

theorem sinceEmptyPost_append {snapshot : Snapshot} (h : snapshot ≠ .post []) :
    sinceEmptyPost (snapshots ++ [snapshot]) = sinceEmptyPost snapshots ++ [snapshot] :=
  List.rtakeWhile_concat_pos _ _ _ (by simpa using h)

end Last

section Provider

variable {dart : ListSort Comment} {request : RequestForPostAndComments}

@[simp] theorem State.notify_post (s : State) : (s.notify dart request).post = s.post := by
  unfold State.notify
  split
  · rfl
  · split <;> rfl

@[simp] theorem State.notify_comments (s : State) :
    (s.notify dart request).comments = s.comments := by
  unfold State.notify
  split
  · rfl
  · split <;> rfl

/-- With a post and comments that can be sorted, a value is emitted. -/
theorem State.notify_emitted {s : State} {p : Post} {out : Iterable Comment}
    (hp : s.post = some p) (hout : applySortingFrom dart request (s.comments.getD []) = some out) :
    (s.notify dart request).emitted.getLast? = some ⟨p, out⟩ := by
  simp only [State.notify, hp, hout, List.getLast?_append, List.getLast?_singleton, Option.some_or]

/-- The post that the most recent settled snapshot holds. -/
def HoldsPost (snapshots : List Snapshot) (p : Post) : Prop :=
  ∃ doc docs, lastPost snapshots = some (doc :: docs) ∧ Post.ofJson doc.id doc.data = some p

/-- The variables are those of the last snapshots, and so is the last value. -/
structure UpToDate (dart : ListSort Comment) (request : RequestForPostAndComments)
    (snapshots : List Snapshot) (s : State) : Prop where
  comments : s.comments = (lastComments (sinceEmptyPost snapshots)).map committedComments
  post : ∀ p, HoldsPost snapshots p → s.post = some p
  emitted : ∀ p out, HoldsPost snapshots p →
    applySortingFrom dart request (s.comments.getD []) = some out →
    s.emitted.getLast? = some ⟨p, out⟩

/-- After `notify` the last value is up to date. -/
theorem UpToDate.notify {snapshots : List Snapshot} {s : State}
    (hcomments : s.comments = (lastComments (sinceEmptyPost snapshots)).map committedComments)
    (hpost : ∀ p, HoldsPost snapshots p → s.post = some p) :
    UpToDate dart request snapshots (s.notify dart request) where
  comments := by rw [State.notify_comments, hcomments]
  post p hp := by rw [State.notify_post, hpost p hp]
  emitted p out hp hout := by
    rw [State.notify_comments] at hout
    exact State.notify_emitted (hpost p hp) hout

/-- One snapshot keeps the provider up to date. -/
theorem UpToDate.receive {snapshots : List Snapshot} {s : State}
    (h : UpToDate dart request snapshots s) (snapshot : Snapshot) :
    UpToDate dart request (snapshots ++ [snapshot]) (s.receive dart request snapshot) := by
  cases snapshot with
  | comments docs =>
    refine .notify ?_ fun p hp => h.post p ?_
    · rw [sinceEmptyPost_append _ (by simp), lastComments_append]
      rfl
    · obtain ⟨doc, docs', hlast, hdecode⟩ := hp
      rw [lastPost_append] at hlast
      exact ⟨doc, docs', hlast, hdecode⟩
  | post docs =>
    cases docs with
    | nil =>
      change UpToDate dart request _ (State.notify dart request ⟨none, none, s.emitted⟩)
      refine .notify ?_ ?_
      · rw [sinceEmptyPost_empty]
        rfl
      · rintro p ⟨doc, docs', hlast, -⟩
        rw [lastPost_append] at hlast
        cases hlast
    | cons doc docs =>
      have hcomments : lastComments (sinceEmptyPost (snapshots ++ [.post (doc :: docs)])) =
          lastComments (sinceEmptyPost snapshots) := by
        rw [sinceEmptyPost_append _ (by simp), lastComments_append]
        rfl
      by_cases hpending : doc.hasPendingWrites = true
      · -- a pending document is skipped, and so it is by `lastPost`
        have hlast : lastPost (snapshots ++ [.post (doc :: docs)]) = lastPost snapshots := by
          rw [lastPost_append]
          simp [Snapshot.settledPost, hpending]
        simp only [State.receive, State.onPost, hpending, ite_true]
        exact ⟨by rw [h.comments, hcomments], fun p hp => h.post p (by rwa [HoldsPost, ← hlast]),
          fun p out hp => h.emitted p out (by rwa [HoldsPost, ← hlast])⟩
      · have hholds : ∀ p, HoldsPost (snapshots ++ [.post (doc :: docs)]) p →
            Post.ofJson doc.id doc.data = some p := by
          rintro p ⟨doc', docs', hlast, hdecode⟩
          rw [lastPost_append] at hlast
          simp only [Snapshot.settledPost, hpending, Bool.false_eq_true, ite_false, Option.some_or,
            Option.some.injEq, List.cons.injEq] at hlast
          rw [hlast.1]
          exact hdecode
        simp only [State.receive, State.onPost, hpending, Bool.false_eq_true, ite_false]
        cases hdecode : Post.ofJson doc.id doc.data with
        | none =>
          -- the decoder throws, and nothing is claimed of a post that does not decode
          have hnone : ∀ p, ¬ HoldsPost (snapshots ++ [.post (doc :: docs)]) p := by
            intro p hp
            cases hdecode.symm.trans (hholds p hp)
          exact ⟨by rw [h.comments, hcomments], fun p hp => absurd hp (hnone p),
            fun p out hp => absurd hp (hnone p)⟩
        | some post =>
          refine .notify ?_ fun p hp => ?_
          · rw [hcomments]
            exact h.comments
          · exact hdecode.symm.trans (hholds p hp)

/-- The provider is up to date after any snapshots. -/
theorem upToDate_listen (dart : ListSort Comment) (request : RequestForPostAndComments)
    (snapshots : List Snapshot) :
    UpToDate dart request snapshots (listen dart request snapshots) := by
  induction snapshots using List.reverseRecOn with
  | nil =>
    refine ⟨rfl, ?_, ?_⟩
    · rintro p ⟨doc, docs, hlast, -⟩
      cases hlast
    · rintro p out ⟨doc, docs, hlast, -⟩
      cases hlast
  | append_singleton snapshots snapshot ih =>
    rw [listen_append_singleton]
    exact ih.receive snapshot

/-- With a post, `notify` emits the comments if they can be sorted. -/
theorem State.notify_emitted_eq {s : State} {p : Post} (hp : s.post = some p) :
    (s.notify dart request).emitted = s.emitted ++
      ((applySortingFrom dart request (s.comments.getD [])).map
        (PostWithComments.mk p)).toList := by
  simp only [State.notify, hp]
  cases applySortingFrom dart request (s.comments.getD []) with
  | none => exact (List.append_nil _).symm
  | some out => rfl

/-- Listening to a snapshot ends with `notify`, if it is settled and its post decodes. -/
theorem State.receive_eq_notify {s : State} {snapshot : Snapshot}
    (hsettled : snapshot.isSettled = true)
    (hdecode : ∀ doc docs, snapshot = .post (doc :: docs) → (Post.ofJson doc.id doc.data).isSome) :
    ∃ t : State, t.emitted = s.emitted ∧ s.receive dart request snapshot =
      t.notify dart request := by
  cases snapshot with
  | comments docs =>
    exact ⟨{ s with comments := some (committedComments docs) }, rfl, rfl⟩
  | post docs =>
    cases docs with
    | nil => exact ⟨⟨none, none, s.emitted⟩, rfl, rfl⟩
    | cons doc docs =>
      have hpending : doc.hasPendingWrites = false := by simpa [Snapshot.isSettled] using hsettled
      obtain ⟨post, hpost⟩ := Option.isSome_iff_exists.mp (hdecode doc docs rfl)
      refine ⟨{ s with post := some post }, rfl, ?_⟩
      simp only [State.receive, State.onPost, hpending, Bool.false_eq_true, ite_false, hpost]

/-- A settled snapshot, once the post is there, makes the provider emit the post with its
comments, unless these cannot be sorted. -/
theorem emitted_of_isSettled (dart : ListSort Comment) (request : RequestForPostAndComments)
    {snapshots : List Snapshot} {snapshot : Snapshot} {p : Post}
    (hsettled : snapshot.isSettled = true) (hp : HoldsPost (snapshots ++ [snapshot]) p) :
    (listen dart request (snapshots ++ [snapshot])).emitted =
      (listen dart request snapshots).emitted ++ ((applySortingFrom dart request
        (shownComments (snapshots ++ [snapshot]))).map (PostWithComments.mk p)).toList := by
  have hdate := upToDate_listen dart request (snapshots ++ [snapshot])
  rw [listen_append_singleton] at hdate ⊢
  have hdecode : ∀ doc docs, snapshot = .post (doc :: docs) →
      (Post.ofJson doc.id doc.data).isSome := by
    rintro doc docs rfl
    have hpending : doc.hasPendingWrites = false := by simpa [Snapshot.isSettled] using hsettled
    obtain ⟨doc', docs', hlast, hpost⟩ := hp
    rw [lastPost_append] at hlast
    simp only [Snapshot.settledPost, hpending, Bool.false_eq_true, ite_false, Option.some_or,
      Option.some.injEq, List.cons.injEq] at hlast
    rw [hlast.1, hpost]
    rfl
  obtain ⟨t, ht, hreceive⟩ : ∃ t : State, t.emitted = (listen dart request snapshots).emitted ∧
      (listen dart request snapshots).receive dart request snapshot = t.notify dart request :=
    State.receive_eq_notify hsettled hdecode
  have hpost := hdate.post p hp
  have hcomments := hdate.comments
  rw [hreceive, State.notify_post] at hpost
  rw [hreceive, State.notify_comments] at hcomments
  rw [hreceive, State.notify_emitted_eq hpost, ht, hcomments]
  rfl

end Provider

/-- If the most recent post snapshot that was not pending holds a post, the last value emitted is
this post with the sorted committed comments of the most recent comments snapshot since the last
empty post snapshot. -/
theorem lastEmitted_of_snapshots (dart : ListSort Comment) (request : RequestForPostAndComments)
    (snapshots : List Snapshot) (doc : QueryDocumentSnapshot) (docs : List QueryDocumentSnapshot)
    (post : Post) (comments : Iterable Comment) (hlast : lastPost snapshots = some (doc :: docs))
    (hpost : Post.ofJson doc.id doc.data = some post)
    (hcomments : applySortingFrom dart request (shownComments snapshots) = some comments) :
    (listen dart request snapshots).emitted.getLast? = some ⟨post, comments⟩ := by
  have hdate := upToDate_listen dart request snapshots
  refine hdate.emitted post comments ⟨doc, docs, hlast, hpost⟩ ?_
  rw [hdate.comments]
  exact hcomments

/-- A committed document of a post. -/
def postDocument : QueryDocumentSnapshot :=
  ⟨"p", (postPayload "u" "m" [] [] .image [] [] [] [] [] none).resolve 0, false⟩

/-- The post of the document. -/
def documentPost : Post := ⟨"p", "u", "m", some 0, [], [], .image, [], [], [], [], []⟩

/-- A committed document of a comment on the post. -/
def commentDocument (id : CommentId) (t : Timestamp) : QueryDocumentSnapshot :=
  ⟨id, (commentPayload "v" "p" "c" "" "").resolve t, false⟩

/-- The comment of the document. -/
def documentComment (id : CommentId) (t : Timestamp) : Comment := ⟨id, "c", t, "v", "p", "", ""⟩

/-- A post that appears after its first comment is shown with the comments received since, the
newest on top. -/
theorem lastEmitted_of_snapshots_two_comments :
    (listen (.insertion Comment) ⟨"p", true, .newestOnTop, none⟩
      [.comments [commentDocument "1" 1], .post [], .post [postDocument],
        .comments [commentDocument "1" 1, commentDocument "2" 2],
        .post [{ postDocument with hasPendingWrites := true }]]).emitted.getLast? =
      some ⟨documentPost, [some (documentComment "2" 2), some (documentComment "1" 1)]⟩ :=
  lastEmitted_of_snapshots _ _ _ postDocument [] _ _ (by decide +kernel)
    (Post.ofJson_postPayload ..) (by decide +kernel)

/-- A post that appears after an empty snapshot is shown without the comments that were received
before that snapshot. -/
theorem not_lastEmitted_of_empty_post :
    ¬ ∀ dart request snapshots doc docs post comments,
      lastPost snapshots = some (doc :: docs) → Post.ofJson doc.id doc.data = some post →
      applySortingFrom dart request (((lastComments snapshots).map committedComments).getD []) =
        some comments →
      (listen dart request snapshots).emitted.getLast? = some ⟨post, comments⟩ := by
  intro hall
  have hlast := hall (.insertion Comment) ⟨"p", true, .newestOnTop, none⟩
    [.comments [commentDocument "1" 1], .post [], .post [postDocument]] postDocument []
    documentPost [some (documentComment "1" 1)] (by decide +kernel)
    (Post.ofJson_postPayload ..) (by decide +kernel)
  have hnone : (listen (.insertion Comment) ⟨"p", true, .newestOnTop, none⟩
      [.comments [commentDocument "1" 1], .post [], .post [postDocument]]).emitted.getLast? =
      some ⟨documentPost, []⟩ := by decide +kernel
  cases hnone.symm.trans hlast

end SpecificPostWithComments

end TekkGram
