import TekkGram.Interaction.Session
import TekkGram.Likes.Toggles

/-!
# Toggles in turn

A completed run takes all likes of its user off a post, however many there are, or puts one new like
there, and leaves every other like alone. Runs one after another flip the like and move the count of
the post's likes by at most one.
-/

namespace TekkGram

open Interaction Async

/-- The likes of this user on this post. -/
def LikeDislikeRequest.likes (request : LikeDislikeRequest) (w : World) : List DocSnapshot :=
  request.query.eval (w.firestore .likes)

/-- The likes of the other users on this post. -/
def LikeDislikeRequest.otherLikes (request : LikeDislikeRequest) (w : World) : List DocSnapshot :=
  ((postLikes request.postId).eval (w.firestore .likes)).filter fun doc =>
    !request.query.selects doc.id doc.data

/-- The count of a post's likes. -/
def likesCount (postId : PostId) (w : World) : Nat :=
  postLikesCount ((postLikes postId).eval (w.firestore .likes))

/-- From one world to the other the likes of a user on a post are all gone, or one new like is the
first one, and nothing else has changed. -/
structure LikeDislikeRequest.Toggles (request : LikeDislikeRequest) (w w' : World) : Prop where
  disliked : request.likes w ≠ [] → request.likes w' = []
  liked : request.likes w = [] → ∃ id date t, id ∉ w.firestore .likes ∧
    request.likes w' = [⟨id, (like request.postId request.likedBy date).resolve t⟩]
  others : ∀ (id : String) (d : Doc), request.query.selects id d = false →
    ((w'.firestore .likes)[id]? = some d ↔ (w.firestore .likes)[id]? = some d)
  firestore : ∀ path, path ≠ .likes → w'.firestore path = w.firestore path

section Toggles

variable {request : LikeDislikeRequest} {w w' : World}

theorem LikeDislikeRequest.mem_likes {doc : DocSnapshot} : doc ∈ request.likes w ↔
    (w.firestore .likes)[doc.id]? = some doc.data ∧
      request.query.selects doc.id doc.data = true := Query.mem_eval_iff rfl

/-- The like that a request adds is one of the user on the post. -/
theorem LikeDislikeRequest.selects_like (request : LikeDislikeRequest) (id : String)
    (date : DateTime) (t : Timestamp) : request.query.selects id
      ((like request.postId request.likedBy date).resolve t) = true := by
  simp only [query, Query.selects, List.all_cons, List.all_nil, Bool.and_true, Option.all_none,
    Bool.and_eq_true, decide_eq_true_eq]
  exact ⟨rfl, rfl⟩

/-- Erasing all likes of the user takes them off the post. -/
theorem LikeDislikeRequest.toggles_eraseDocs (h : request.likes w ≠ []) :
    request.Toggles w (w.eraseDocs .likes ((request.likes w).map (·.id))) where
  disliked _ := by
    refine List.eq_nil_iff_forall_not_mem.mpr fun doc hdoc => ?_
    obtain ⟨hstored, hselects⟩ := mem_likes.mp hdoc
    rw [World.eraseDocs_firestore, Function.update_self, Collection.getElem?_eraseAll] at hstored
    split at hstored
    · cases hstored
    · rename_i hid
      exact hid (List.mem_map_of_mem (mem_likes.mpr ⟨hstored, hselects⟩))
  liked hnone := absurd hnone h
  others id d hother := by
    rw [World.eraseDocs_firestore, Function.update_self, Collection.getElem?_eraseAll]
    split
    · rename_i hid
      obtain ⟨doc, hdoc, rfl⟩ := List.mem_map.mp hid
      obtain ⟨hstored, hselects⟩ := mem_likes.mp hdoc
      refine iff_of_false nofun fun hd => ?_
      obtain rfl : doc.data = d := Option.some.inj (hstored.symm.trans hd)
      exact Bool.false_ne_true (hother.symm.trans hselects)
    · rfl
  firestore path hpath := by
    rw [World.eraseDocs_firestore, Function.update_of_ne hpath]

/-- A new like is the only one of a user who had none. -/
theorem LikeDislikeRequest.toggles_setDoc (h : request.likes w = []) {id : String}
    (hnew : id ∉ w.firestore .likes) (date : DateTime) (t : Timestamp) :
    request.Toggles w
      (w.setDoc .likes id ((like request.postId request.likedBy date).resolve t)) where
  disliked hsome := absurd h hsome
  liked _ := by
    refine ⟨id, date, t, hnew, ?_⟩
    have hnodup : (request.likes
        (w.setDoc .likes id ((like request.postId request.likedBy date).resolve t))).Nodup :=
      (Query.nodup_eval request.query _).of_map _
    refine List.perm_singleton.mp
      ((List.perm_ext_iff_of_nodup hnodup (List.nodup_singleton _)).mpr fun doc => ?_)
    rw [mem_likes, World.setDoc_firestore, Function.update_self, Collection.getElem?_insert,
      List.mem_singleton]
    constructor
    · rintro ⟨hstored, hselects⟩
      split at hstored
      · rename_i hid
        rw [hid, Option.some.inj hstored]
      · have hdoc : doc ∈ request.likes w := mem_likes.mpr ⟨hstored, hselects⟩
        rw [h] at hdoc
        cases hdoc
    · rintro rfl
      exact ⟨if_pos rfl, request.selects_like id date t⟩
  others id' d hother := by
    rw [World.setDoc_firestore, Function.update_self, Collection.getElem?_insert]
    split
    · rename_i hid
      subst hid
      refine iff_of_false (fun hd => ?_) fun hd => ?_
      · obtain rfl := Option.some.inj hd
        exact Bool.false_ne_true (hother.symm.trans (request.selects_like id date t))
      · rw [Std.ExtTreeMap.getElem?_eq_none hnew] at hd
        cases hd
    · rfl
  firestore path hpath := by rw [World.setDoc_firestore, Function.update_of_ne hpath]

/-- Deleting the likes that were read, when it returns `true`, has erased them all. -/
theorem deleteLikes_spec (docs : List DocSnapshot) (s : Unit) (w : World) :
    (LikeDislikeRequest.deleteLikes docs).wp World.step (fun _ out _ w' =>
      out = .ok true → w' = w.eraseDocs .likes (docs.map (·.id))) s w := by
  refine wp_tryCatch.mpr (wp_bind.mpr ?_)
  refine wp_forEach (fun before _ _ w' => w' = w.eraseDocs .likes (before.map (·.id))) ?_ ?_ ?_
  · simp [World.eraseDocs, Collection.eraseAll]
  · rintro before doc after tr s w₁ - rfl
    refine wp_delete.mpr ⟨?_, ?_⟩
    · simp
    · simp [World.eraseDocs, World.eraseDoc, Collection.eraseAll]
  · rintro tr s w₁ rfl
    simp

/-- Adding a like, when it returns `true`, has stored it under a new id. -/
theorem postLike_spec (request : LikeDislikeRequest) (s : Unit) (w : World) :
    request.postLike.wp World.step (fun _ out _ w' => out = .ok true → ∃ id date t,
      id ∉ w.firestore .likes ∧
        w' = w.setDoc .likes id ((like request.postId request.likedBy date).resolve t)) s w := by
  refine wp_bind.mpr (wp_now.mpr fun date => wp_tryCatch.mpr (wp_bind.mpr (wp_add.mpr ⟨?_, ?_⟩)))
  · simp
  · intro id t hnew
    simp only [ends_ok, wp_pure]
    exact fun _ => ⟨id, date, t, hnew, rfl⟩

/-- A completed run toggles the likes of its user on the post. -/
theorem likeDislikePost_toggles {tr : List AppEvent} {s : Unit}
    (h : Runs World.step w (likeDislikePost request ()) tr (.ok true, s) w') :
    request.Toggles w w' := by
  have hspec : (likeDislikePost request).wp World.step
      (fun _ out _ w' => out = .ok true → request.Toggles w w') () w := by
    refine wp_bind.mpr (wp_get_query.mpr ⟨nofun, ?_⟩)
    rw [ends_ok]
    split
    · rename_i hnone
      refine wp_mono (postLike_spec request () w) fun tr out s w' hout htrue => ?_
      obtain ⟨id, date, t, hnew, rfl⟩ := hout htrue
      exact request.toggles_setDoc hnone hnew date t
    · rename_i hsome
      refine wp_mono (deleteLikes_spec _ () w) fun tr out s w' hout htrue => ?_
      rw [hout htrue]
      exact LikeDislikeRequest.toggles_eraseDocs hsome
  exact hspec.elim h rfl

end Toggles

section Count

variable {request : LikeDislikeRequest} {w w' : World}

/-- The user's likes of a post are likes of the post. -/
theorem LikeDislikeRequest.selects_postLikes {id : String} {d : Doc}
    (h : request.query.selects id d = true) : (postLikes request.postId).selects id d = true := by
  simp only [query, Query.selects, postLikes, List.all_cons, List.all_nil, Bool.and_true,
    Option.all_none, Bool.and_eq_true] at h ⊢
  exact h.1

theorem LikeDislikeRequest.mem_otherLikes {doc : DocSnapshot} : doc ∈ request.otherLikes w ↔
    ((w.firestore .likes)[doc.id]? = some doc.data ∧
      (postLikes request.postId).selects doc.id doc.data = true) ∧
      request.query.selects doc.id doc.data = false := by
  rw [otherLikes, List.mem_filter, Query.mem_eval_iff rfl, Bool.not_eq_true']

/-- A post's likes are those of the user and those of the others. -/
theorem LikeDislikeRequest.likesCount_eq (request : LikeDislikeRequest) (w : World) :
    likesCount request.postId w = (request.likes w).length + (request.otherLikes w).length := by
  have hall : ((postLikes request.postId).eval (w.firestore .likes)).Nodup :=
    (Query.nodup_eval _ _).of_map _
  have hown : (((postLikes request.postId).eval (w.firestore .likes)).filter fun doc =>
      request.query.selects doc.id doc.data).Perm (request.likes w) := by
    refine (List.perm_ext_iff_of_nodup (hall.filter _)
      ((Query.nodup_eval _ _).of_map _)).mpr fun doc => ?_
    change _ ↔ doc ∈ request.likes w
    rw [List.mem_filter, Query.mem_eval_iff rfl, mem_likes]
    exact ⟨fun h => ⟨h.1.1, h.2⟩, fun h => ⟨⟨h.1, selects_postLikes h.2⟩, h.2⟩⟩
  rw [likesCount, postLikesCount, ← hown.length_eq]
  exact List.length_eq_length_filter_add _

/-- A toggle keeps the number of the other users' likes. -/
theorem LikeDislikeRequest.Toggles.length_otherLikes (h : request.Toggles w w') :
    (request.otherLikes w').length = (request.otherLikes w).length := by
  have hnodup : ∀ w, (request.otherLikes w).Nodup :=
    fun w => ((Query.nodup_eval _ _).of_map _).filter _
  refine ((List.perm_ext_iff_of_nodup (hnodup w') (hnodup w)).mpr fun doc => ?_).length_eq
  rw [mem_otherLikes, mem_otherLikes]
  exact and_congr_left fun hother => and_congr_left fun _ => h.others doc.id doc.data hother

/-- A toggle flips what the user is shown. -/
theorem LikeDislikeRequest.Toggles.hasLiked_iff (h : request.Toggles w w') :
    request.hasLiked w' = true ↔ ¬ request.hasLiked w = true := by
  simp only [← Bool.not_eq_false, hasLiked_eq_false, not_not]
  change ¬ request.likes w' = [] ↔ request.likes w = []
  constructor
  · intro hsome
    by_contra hliked
    exact hsome (h.disliked hliked)
  · intro hnone
    obtain ⟨id, date, t, -, hliked⟩ := h.liked hnone
    rw [hliked]
    exact List.cons_ne_nil _ _

/-- A toggle leaves at most one like. -/
theorem LikeDislikeRequest.Toggles.length_likes_le (h : request.Toggles w w') :
    (request.likes w').length ≤ 1 := by
  by_cases hliked : request.likes w = []
  · obtain ⟨id, date, t, -, hnew⟩ := h.liked hliked
    rw [hnew]
    rfl
  · rw [h.disliked hliked]
    exact Nat.zero_le 1

end Count

/-- A session of completed runs of one request. -/
abbrev ToggleSession (request : LikeDislikeRequest) (w₀ : World)
    (past : List (Completed World Unit (Fallible Exc Ans) (Except Exc Bool × Unit))) (w : World) :
    Prop :=
  Session World.step (fun _ => likeDislikePost request ())
    (fun _ step => step.result.1 = .ok true) w₀ past w

section Session

variable {request : LikeDislikeRequest} {w₀ w : World}
  {past : List (Completed World Unit (Fallible Exc Ans) (Except Exc Bool × Unit))}

/-- After completed runs, one after another, the user likes the post as often as it was toggled, with
at most one like if there was at most one, and the others like it as before. -/
theorem ToggleSession.invariant (h : ToggleSession request w₀ past w) :
    (request.hasLiked w = true ↔ Toggled (request.hasLiked w₀ = true) past.length) ∧
      ((request.likes w₀).length ≤ 1 → (request.likes w).length ≤ 1) ∧
      (request.otherLikes w).length = (request.otherLikes w₀).length := by
  refine Session.invariant h (fun past w =>
    (request.hasLiked w = true ↔ Toggled (request.hasLiked w₀ = true) past.length) ∧
      ((request.likes w₀).length ≤ 1 → (request.likes w).length ≤ 1) ∧
      (request.otherLikes w).length = (request.otherLikes w₀).length) ?_ ?_
  · simp [Toggled]
  · rintro past w op tr ⟨out, s⟩ w' ⟨hliked, -, hothers⟩ rfl hrun
    have htoggles := likeDislikePost_toggles hrun
    refine ⟨?_, fun _ => htoggles.length_likes_le, htoggles.length_otherLikes.trans hothers⟩
    rw [htoggles.hasLiked_iff, hliked, List.length_append, List.length_singleton, toggled_succ]

/-- The user likes the post by one like or by none. -/
theorem LikeDislikeRequest.length_likes_eq (h : (request.likes w).length ≤ 1) :
    (request.likes w).length = if request.hasLiked w then 1 else 0 := by
  have hnone : request.hasLiked w = false ↔ request.likes w = [] := hasLiked_eq_false
  cases hliked : request.hasLiked w with
  | false => rw [hnone.mp hliked]; rfl
  | true =>
    have hsome : request.likes w ≠ [] := fun hnil => by
      rw [hnone.mpr hnil] at hliked
      cases hliked
    exact le_antisymm h (List.length_pos_iff.mpr hsome)

end Session

/-- Every completed run toggles the user's likes of the post. From at most one such like on, any
number of them in turn flips the like exactly when it is odd, and the count of the post's likes has
moved by at most one, and not at all when it is even. -/
theorem likeDislikePost_in_turn (request : LikeDislikeRequest) :
    (∀ w tr s w', Runs World.step w (likeDislikePost request ()) tr (.ok true, s) w' →
      request.Toggles w w') ∧
    ∀ w₀ past w, ToggleSession request w₀ past w → (request.likes w₀).length ≤ 1 →
      (request.hasLiked w ≠ request.hasLiked w₀ ↔ Odd past.length) ∧
      likesCount request.postId w ≤ likesCount request.postId w₀ + 1 ∧
      likesCount request.postId w₀ ≤ likesCount request.postId w + 1 ∧
      (Even past.length → likesCount request.postId w = likesCount request.postId w₀) := by
  refine ⟨fun w tr s w' h => likeDislikePost_toggles h, fun w₀ past w hsession hone => ?_⟩
  obtain ⟨hliked, hmost, hothers⟩ := hsession.invariant
  have hflipped : request.hasLiked w ≠ request.hasLiked w₀ ↔ Odd past.length := by
    rw [ne_eq, Bool.eq_iff_iff, hliked, Toggled, ← Nat.not_even_iff_odd]
    by_cases hbefore : request.hasLiked w₀ = true <;> simp [hbefore]
  have hcount := request.likesCount_eq w
  have hcount₀ := request.likesCount_eq w₀
  rw [LikeDislikeRequest.length_likes_eq (hmost hone), hothers] at hcount
  rw [LikeDislikeRequest.length_likes_eq hone] at hcount₀
  refine ⟨hflipped, ?_, ?_, fun heven => ?_⟩
  · split at hcount <;> split at hcount₀ <;> omega
  · split at hcount <;> split at hcount₀ <;> omega
  · have hsame : request.hasLiked w = request.hasLiked w₀ := by
      by_contra hne
      exact Nat.not_even_iff_odd.mpr (hflipped.mp hne) heven
    rw [hcount, hcount₀, hsame]

/-- A user taps twice on a post that somebody else likes. -/
theorem likeDislikePost_in_turn_two_taps : ∃ w₀ past w,
    ToggleSession ⟨"p", "u"⟩ w₀ past w ∧ past.length = 2 ∧ likesCount "p" w₀ = 1 ∧
      likesCount "p" w = likesCount "p" w₀ := by
  let w₀ := World.initial.setDoc .likes "0" ((like "p" "v" ⟨0, ""⟩).resolve 0)
  have hexec : (((likeDislikePost ⟨"p", "u"⟩ ()).exec World.step World.working 0 w₀).bind
      fun r => ((likeDislikePost ⟨"p", "u"⟩ ()).exec World.step World.working 9 r.2.2).map
        fun r' => (r, r')).any (fun r => r.1.2.1.1 = .ok true && r.2.2.1.1 = .ok true) = true := by
    decide +kernel
  obtain ⟨⟨⟨tr, ⟨out, s⟩, w₁⟩, tr', ⟨out', s'⟩, w₂⟩, hboth, hcheck⟩ :=
    (Option.any_eq_true _ _).mp hexec
  obtain ⟨r, hfirst, hsecond⟩ := Option.bind_eq_some_iff.mp hboth
  obtain ⟨r', hsecond, heq⟩ := Option.map_eq_some_iff.mp hsecond
  cases heq
  obtain ⟨hout, hout'⟩ := (Bool.and_eq_true _ _).mp hcheck
  have hsession : ToggleSession ⟨"p", "u"⟩ w₀
      ([⟨w₀, (), tr, (out, s)⟩] ++ [⟨w₁, (), tr', (out', s')⟩]) w₂ :=
    .snoc (.single (Program.exec_runs hfirst) (of_decide_eq_true hout))
      (Program.exec_runs hsecond) (of_decide_eq_true hout')
  refine ⟨w₀, _, w₂, hsession, rfl, by decide +kernel, ?_⟩
  exact ((likeDislikePost_in_turn ⟨"p", "u"⟩).2 w₀ _ w₂ hsession
    (by decide +kernel)).2.2.2 even_two

end TekkGram
