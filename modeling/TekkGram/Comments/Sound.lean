import TekkGram.Comments.Providers

/-!
# The comments that are shown

Whatever either provider emits, its comments are those of different committed documents of the
snapshot that it shows: as many as the limit allows, in the order that was asked for, and all of
them where there is no limit.
-/

namespace TekkGram

/-- The comment of a document; nothing where it cannot be read. -/
def QueryDocumentSnapshot.comment (doc : QueryDocumentSnapshot) : Option Comment :=
  Comment.ofJson doc.data doc.id

/-- The comments are ordered by date in the direction of the request. -/
def RequestForPostAndComments.Ordered (request : RequestForPostAndComments)
    (comments : List Comment) : Prop :=
  comments.Pairwise fun a b =>
    match request.dateSorting with
    | .newestOnTop => b.createdAt ≤ a.createdAt
    | .oldestOnTop => a.createdAt ≤ b.createdAt

/-- The documents of the items that are shown: different committed ones of the snapshot, and all of
these without a limit. -/
structure RequestForPostAndComments.Shows (request : RequestForPostAndComments)
    (docs kept : List QueryDocumentSnapshot) : Prop where
  distinct : (kept.map (·.id)).Nodup
  committed : ∀ doc ∈ kept, doc ∈ docs ∧ doc.hasPendingWrites = false
  all : request.limit = none → ∀ doc ∈ docs, doc.hasPendingWrites = false → doc ∈ kept

/-- A request is answered with comments of a snapshot. -/
structure RequestForPostAndComments.Sound (request : RequestForPostAndComments)
    (docs : List QueryDocumentSnapshot) (comments : Iterable Comment) : Prop where
  shows : ∃ kept, request.Shows docs kept ∧ comments = kept.map QueryDocumentSnapshot.comment
  length_le : ∀ n, request.limit = some n → comments.length ≤ n
  ordered : request.sortByCreatedAt = true →
    ∃ read : List Comment, comments = read.map some ∧ request.Ordered read

section Sound

variable {dart : ListSort Comment} {request : RequestForPostAndComments}
  {docs taken : List QueryDocumentSnapshot} {comments : Iterable Comment}

/-- A sort by the comparison of the request orders the comments in its direction. -/
theorem RequestForPostAndComments.ordered_sort (dart : ListSort Comment)
    (request : RequestForPostAndComments) (comments : List Comment) :
    request.Ordered (dart.sort request.compare comments) := by
  refine (dart.sorted request.compare comments).imp fun {a b} hle => ?_
  cases h : request.dateSorting with
  | newestOnTop =>
    rw [compare_of_newestOnTop h] at hle
    exact Std.isLE_compare.mp hle
  | oldestOnTop =>
    rw [compare_of_oldestOnTop h] at hle
    exact Std.isLE_compare.mp hle

/-- Sorting shows the same documents, in some order. -/
theorem applySortingFrom_perm
    (h : applySortingFrom dart request (committedComments taken) = some comments) :
    ∃ kept : List QueryDocumentSnapshot,
      kept.Perm (taken.filter fun doc => !doc.hasPendingWrites) ∧
        comments = kept.map QueryDocumentSnapshot.comment := by
  unfold applySortingFrom at h
  split at h
  · obtain ⟨read, hread, rfl⟩ := Option.map_eq_some_iff.mp h
    have hperm : ((dart.sort request.compare read).map some).Perm (committedComments taken) := by
      rw [Iterable.toList_eq_some_iff.mp hread]
      exact (dart.perm request.compare read).map some
    obtain ⟨kept, hmap, hkept⟩ :=
      (congrFun₂ (List.eq_map_comp_perm QueryDocumentSnapshot.comment) _ _).mpr hperm
    exact ⟨kept, hkept, hmap⟩
  · obtain rfl := Option.some.inj h
    exact ⟨_, .refl _, rfl⟩

/-- The committed ones of the documents that are taken from a snapshot answer the request, if these
are as many as the limit allows. -/
theorem RequestForPostAndComments.sound_of_sublist (hids : (docs.map (·.id)).Nodup)
    (htaken : taken.Sublist docs) (hlength : ∀ n, request.limit = some n → taken.length ≤ n)
    (hall : request.limit = none → taken = docs)
    (h : applySortingFrom dart request (committedComments taken) = some comments) :
    request.Sound docs comments := by
  obtain ⟨kept, hperm, rfl⟩ := applySortingFrom_perm h
  have hmem : ∀ doc, doc ∈ kept ↔ doc ∈ taken ∧ doc.hasPendingWrites = false := by
    intro doc
    rw [hperm.mem_iff, List.mem_filter, Bool.not_eq_true']
  refine ⟨⟨kept, ⟨?_, ?_, ?_⟩, rfl⟩, ?_, ?_⟩
  · refine (hperm.map _).nodup_iff.mpr (hids.sublist ?_)
    exact (List.filter_sublist.trans htaken).map _
  · intro doc hdoc
    obtain ⟨hdoc, hcommitted⟩ := (hmem doc).mp hdoc
    exact ⟨htaken.subset hdoc, hcommitted⟩
  · intro hlimit doc hdoc hcommitted
    exact (hmem doc).mpr ⟨hall hlimit ▸ hdoc, hcommitted⟩
  · intro n hn
    rw [List.length_map, hperm.length_eq]
    exact (List.length_filter_le _ _).trans (hlength n hn)
  · intro hsort
    rw [applySortingFrom, if_pos hsort] at h
    obtain ⟨read, -, hread⟩ := Option.map_eq_some_iff.mp h
    exact ⟨_, hread.symm, request.ordered_sort dart read⟩

/-- `postCommentsProvider` answers the request with comments of the snapshot. -/
theorem PostComments.sound_onComments (hids : (docs.map (·.id)).Nodup)
    (h : PostComments.onComments dart request docs = some comments) :
    request.Sound docs comments := by
  refine RequestForPostAndComments.sound_of_sublist hids ?_ (fun n hn => ?_) (fun hnone => ?_) h
  · calc (request.limited docs).Sublist (request.limited docs ++ request.cutOff docs) :=
        List.sublist_append_left ..
      _ = docs := request.limited_append_cutOff docs
  · rw [RequestForPostAndComments.limited, hn]
    exact List.length_take_le n docs
  · rw [RequestForPostAndComments.limited, hnone]

end Sound

/-- A snapshot of the comments query of `specificPostWithCommentsProvider`, which Firestore limits:
its documents are different, and no more than the limit. -/
structure RequestForPostAndComments.Answers (request : RequestForPostAndComments)
    (docs : List QueryDocumentSnapshot) : Prop where
  distinct : (docs.map (·.id)).Nodup
  length_le : ∀ n, request.limit = some n → docs.length ≤ n

namespace SpecificPostWithComments

variable {dart : ListSort Comment} {request : RequestForPostAndComments}

/-- The documents of the comments that are shown with the post. -/
def shownDocuments (snapshots : List Snapshot) : List QueryDocumentSnapshot :=
  (lastComments (sinceEmptyPost snapshots)).getD []

theorem shownComments_eq (snapshots : List Snapshot) :
    shownComments snapshots = committedComments (shownDocuments snapshots) := by
  unfold shownComments shownDocuments
  cases lastComments (sinceEmptyPost snapshots) <;> rfl

/-- The documents that are shown come from a snapshot, if there are any. -/
theorem shownDocuments_of_forall {P : List QueryDocumentSnapshot → Prop}
    {snapshots : List Snapshot} (hnil : P [])
    (h : ∀ docs, Snapshot.comments docs ∈ snapshots → P docs) : P (shownDocuments snapshots) := by
  unfold shownDocuments
  cases hlast : lastComments (sinceEmptyPost snapshots) with
  | none => exact hnil
  | some docs =>
    obtain ⟨snapshot, hmem, hdocs⟩ := List.mem_filterMap.mp (List.mem_of_getLast? hlast)
    have hsnapshot : snapshot = .comments docs := by
      cases snapshot with
      | post docs' => cases hdocs
      | comments docs' => exact congrArg Snapshot.comments (Option.some.inj hdocs)
    refine h docs (hsnapshot ▸ ?_)
    exact (List.rtakeWhile_suffix _ _).subset hmem

/-- `notify` emits nothing, or the post with its comments. -/
theorem State.notify_emitted_or (s : State) :
    (s.notify dart request).emitted = s.emitted ∨ ∃ value,
      (s.notify dart request).emitted = s.emitted ++ [value] ∧ s.post = some value.post ∧
        applySortingFrom dart request (s.comments.getD []) = some value.comments := by
  cases hpost : s.post with
  | none => exact .inl (by simp only [State.notify, hpost])
  | some post =>
    rw [State.notify_emitted_eq hpost]
    cases hsort : applySortingFrom dart request (s.comments.getD []) with
    | none => exact .inl (List.append_nil _)
    | some out => exact .inr ⟨⟨post, out⟩, rfl, rfl, rfl⟩

variable (dart request) in
/-- A snapshot makes the provider emit nothing, or the post that is there with its comments. -/
theorem State.receive_emitted_or (s : State) (snapshot : Snapshot) :
    (s.receive dart request snapshot).emitted = s.emitted ∨ ∃ value,
      (s.receive dart request snapshot).emitted = s.emitted ++ [value] ∧
        (s.receive dart request snapshot).post = some value.post ∧
        applySortingFrom dart request ((s.receive dart request snapshot).comments.getD []) =
          some value.comments := by
  have hnotify : ∀ t : State, t.emitted = s.emitted →
      (t.notify dart request).emitted = s.emitted ∨ ∃ value,
        (t.notify dart request).emitted = s.emitted ++ [value] ∧
          (t.notify dart request).post = some value.post ∧
          applySortingFrom dart request ((t.notify dart request).comments.getD []) =
            some value.comments := by
    intro t ht
    rw [State.notify_post, State.notify_comments, ← ht]
    exact State.notify_emitted_or t
  cases snapshot with
  | comments docs => exact hnotify _ rfl
  | post docs =>
    cases docs with
    | nil => exact hnotify _ rfl
    | cons doc docs =>
      unfold State.receive State.onPost
      by_cases hpending : doc.hasPendingWrites = true
      · exact .inl (by simp only [hpending, ite_true])
      · cases hdecode : Post.ofJson doc.id doc.data with
        | none => exact .inl (by simp only [hpending, hdecode]; rfl)
        | some post =>
          simp only [hpending, hdecode, Bool.false_eq_true, ite_false]
          exact hnotify _ rfl

/-- The value was emitted upon this snapshot, when its post was there. -/
def EmittedUpon (dart : ListSort Comment) (request : RequestForPostAndComments)
    (value : PostWithComments) (before : List Snapshot) (snapshot : Snapshot) : Prop :=
  (listen dart request (before ++ [snapshot])).emitted =
      (listen dart request before).emitted ++ [value] ∧
    (listen dart request (before ++ [snapshot])).post = some value.post

/-- The comments of an emitted value answer the request with those of the documents that are
shown. -/
theorem sound_of_emitted {snapshots : List Snapshot}
    (hanswers : ∀ docs, Snapshot.comments docs ∈ snapshots → request.Answers docs)
    {comments : Iterable Comment}
    (h : applySortingFrom dart request ((listen dart request snapshots).comments.getD []) =
      some comments) : request.Sound (shownDocuments snapshots) comments := by
  have hcomments : (listen dart request snapshots).comments.getD [] =
      committedComments (shownDocuments snapshots) := by
    rw [(upToDate_listen dart request snapshots).comments, ← shownComments_eq]
    rfl
  have hshown : request.Answers (shownDocuments snapshots) :=
    shownDocuments_of_forall ⟨List.nodup_nil, fun n _ => Nat.zero_le n⟩ hanswers
  rw [hcomments] at h
  exact RequestForPostAndComments.sound_of_sublist hshown.distinct (.refl _) hshown.length_le
    (fun _ => rfl) h

/-- Every value was emitted upon a snapshot, with comments that answer the request. -/
theorem sound_emitted (dart : ListSort Comment) (request : RequestForPostAndComments)
    (snapshots : List Snapshot)
    (hanswers : ∀ docs, Snapshot.comments docs ∈ snapshots → request.Answers docs) :
    ∀ value ∈ (listen dart request snapshots).emitted, ∃ before snapshot after,
      snapshots = before ++ snapshot :: after ∧ EmittedUpon dart request value before snapshot ∧
        request.Sound (shownDocuments (before ++ [snapshot])) value.comments := by
  induction snapshots using List.reverseRecOn with
  | nil => nofun
  | append_singleton snapshots snapshot ih =>
    intro value hvalue
    have hbefore : value ∈ (listen dart request snapshots).emitted →
        ∃ before snapshot' after, snapshots ++ [snapshot] = before ++ snapshot' :: after ∧
          EmittedUpon dart request value before snapshot' ∧
            request.Sound (shownDocuments (before ++ [snapshot'])) value.comments := by
      intro hmem
      obtain ⟨before, snapshot', after, rfl, hupon, hsound⟩ :=
        ih (fun docs hdocs => hanswers docs (List.mem_append_left _ hdocs)) value hmem
      exact ⟨before, snapshot', after ++ [snapshot], by simp, hupon, hsound⟩
    have hreceive := State.receive_emitted_or dart request (listen dart request snapshots) snapshot
    rw [← listen_append_singleton] at hreceive
    rcases hreceive with hsame | ⟨value', hemitted, hpost, hsort⟩
    · exact hbefore (hsame ▸ hvalue)
    · rw [hemitted] at hvalue
      rcases List.mem_append.mp hvalue with hmem | hmem
      · exact hbefore hmem
      · obtain rfl := List.mem_singleton.mp hmem
        exact ⟨snapshots, snapshot, [], rfl, ⟨hemitted, hpost⟩, sound_of_emitted hanswers hsort⟩

end SpecificPostWithComments

/-- Whatever `postCommentsProvider` emits upon a snapshot of different documents, and whatever
`specificPostWithCommentsProvider` emits with its post upon snapshots of the limited query, are
comments that answer the request. -/
theorem commentLists_sound (dart : ListSort Comment) (request : RequestForPostAndComments) :
    (∀ docs comments, (docs.map (·.id)).Nodup →
      PostComments.onComments dart request docs = some comments → request.Sound docs comments) ∧
    ∀ snapshots, (∀ docs, Snapshot.comments docs ∈ snapshots → request.Answers docs) →
      ∀ value ∈ (SpecificPostWithComments.listen dart request snapshots).emitted,
        ∃ before snapshot after, snapshots = before ++ snapshot :: after ∧
          SpecificPostWithComments.EmittedUpon dart request value before snapshot ∧
          request.Sound (SpecificPostWithComments.shownDocuments (before ++ [snapshot]))
            value.comments :=
  ⟨fun _ _ hids h => PostComments.sound_onComments hids h,
    SpecificPostWithComments.sound_emitted dart request⟩

/-- Two comments of which one is pending, and the value emitted with the committed one. -/
theorem commentLists_sound_pending :
    (newestOnTop (some 2)).Sound
      [SpecificPostWithComments.commentDocument "1" 1,
        { SpecificPostWithComments.commentDocument "2" 2 with hasPendingWrites := true }]
      [some (SpecificPostWithComments.documentComment "1" 1)] ∧
    ∀ value ∈ (SpecificPostWithComments.listen (.insertion Comment) (newestOnTop (some 2))
      [.post [SpecificPostWithComments.postDocument],
        .comments [SpecificPostWithComments.commentDocument "1" 1]]).emitted,
      ∃ before snapshot after,
        [.post [SpecificPostWithComments.postDocument],
          .comments [SpecificPostWithComments.commentDocument "1" 1]] =
            before ++ snapshot :: after ∧
        SpecificPostWithComments.EmittedUpon (.insertion Comment) (newestOnTop (some 2)) value
          before snapshot ∧
        (newestOnTop (some 2)).Sound
          (SpecificPostWithComments.shownDocuments (before ++ [snapshot])) value.comments := by
  refine ⟨(commentLists_sound (.insertion Comment) _).1 _ _ (by decide) (by decide +kernel),
    (commentLists_sound (.insertion Comment) _).2 _ fun docs hdocs => ?_⟩
  obtain rfl : docs = [SpecificPostWithComments.commentDocument "1" 1] := by
    simpa using hdocs
  exact ⟨by decide, by rintro n ⟨⟩; decide⟩

end TekkGram
