import Mathlib.Algebra.Group.Nat.Even
import TekkGram.Likes.AtMostOneLike

/-!
# Toggles of a like

A run reads whether its user likes the post and then writes the opposite. Runs one after another
toggle the like each time. A run that reads while another is between its read and its last write
writes what the other one writes, and one of the two toggles is lost.
-/

namespace TekkGram

open Interaction Async

/-- What `hasLikedPostProvider` emits to the user of a request. -/
def LikeDislikeRequest.hasLiked (request : LikeDislikeRequest) (w : World) : Bool :=
  !(request.query.eval (w.firestore .likes)).isEmpty

/-- A run has read its likes and has not completed. -/
def TapUnderWay (moves : List LikeMove) (P : LikePool) (i : Nat) : Prop :=
  eventsOf i moves ≠ [] ∧ ∀ b, P.threads[i]? ≠ some (.done b)

/-- A run reads its likes only when no other run is between its read and its last write. -/
def ReadsAlone (moves : List LikeMove) (P : LikePool) (m : LikeMove) : Prop :=
  eventsOf m.thread moves = [] → ∀ i ≠ m.thread, ¬ TapUnderWay moves P i

/-- A run between its read and its last write. -/
@[simp] def Stage.Active : Stage → Prop
  | .deleting (_ :: _) => True
  | .dating => True
  | .adding _ => True
  | _ => False

/-- The test for a run that has completed. -/
@[simp] def Stage.completed : Stage → Bool
  | .deleting [] => true
  | .ended _ => true
  | _ => false

/-- A run that has ended with something else than `true`. -/
@[simp] def Stage.Failed : Stage → Prop
  | .ended outcome => outcome ≠ .ok true
  | _ => False

/-- What a run between its read and its last write relies on: the user likes the post or not, as it
has read, and all likes of the user are among those that it is going to delete. -/
def Stage.Fits (request : LikeDislikeRequest) (w : World) (liked : Prop) : Stage → Prop
  | .deleting docs => liked ∧ ∀ doc ∈ request.query.eval (w.firestore .likes),
    doc.id ∈ docs.map (·.id)
  | .dating => ¬ liked ∧ request.query.eval (w.firestore .likes) = []
  | .adding _ => ¬ liked ∧ request.query.eval (w.firestore .likes) = []
  | _ => True

/-- The user likes the post after this many toggles. -/
def Toggled (liked : Prop) (count : Nat) : Prop := (liked ∧ Even count) ∨ (¬ liked ∧ Odd count)

/-- One more toggle. -/
theorem toggled_succ {liked : Prop} {count : Nat} :
    Toggled liked (count + 1) ↔ ¬ Toggled liked count := by
  by_cases hliked : liked <;>
    simp [Toggled, hliked, Nat.even_add_one, Nat.odd_add_one]

theorem LikeDislikeRequest.hasLiked_eq_false {request : LikeDislikeRequest} {w : World} :
    request.hasLiked w = false ↔ request.query.eval (w.firestore .likes) = [] := by
  simp [hasLiked]

/-- Erasing a like leaves the query the other ones. -/
theorem LikeDislikeRequest.mem_query_eraseDoc {request : LikeDislikeRequest} {w : World}
    {id : String} {like : DocSnapshot} :
    like ∈ request.query.eval ((w.eraseDoc .likes id).firestore .likes) ↔
      like ∈ request.query.eval (w.firestore .likes) ∧ id ≠ like.id := by
  rw [World.eraseDoc_firestore, Function.update_self, mem_query, mem_query,
    Collection.getElem?_erase]
  by_cases hid : id = like.id <;> simp [hid]

/-- A stored like is one of the user's likes of the post. -/
theorem LikeDislikeRequest.hasLiked_setDoc_like (request : LikeDislikeRequest) (w : World)
    (id : String) (date : DateTime) (t : Timestamp) :
    request.hasLiked (w.setDoc .likes id
      ((like request.postId request.likedBy date).resolve t)) = true := by
  have hmem : (⟨id, (like request.postId request.likedBy date).resolve t⟩ : DocSnapshot) ∈
      request.query.eval ((w.setDoc .likes id
        ((like request.postId request.likedBy date).resolve t)).firestore .likes) := by
    rw [mem_query, World.setDoc_firestore, Function.update_self]
    exact ⟨Collection.getElem?_insert_self, rfl, rfl⟩
  rw [hasLiked, Bool.not_eq_true', List.isEmpty_eq_false_iff]
  exact List.ne_nil_of_mem hmem

/-- The stages of the runs of a pool: a run is at its first stage as long as it has not moved, at
most one run is between its read and its last write, and as long as no run has failed, the user
likes the post as often as runs have completed. -/
structure ToggleInvariant (request : LikeDislikeRequest) (liked : Prop) (stages : List Stage)
    (moves : List LikeMove) (P : LikePool) : Prop where
  threads : P.threads = stages.map (Stage.program request)
  fresh : ∀ (i : Nat) (stage : Stage), stages[i]? = some stage →
    (stage = .reading ↔ eventsOf i moves = [])
  one : ∀ (i j : Nat) (stage stage' : Stage), stages[i]? = some stage → stages[j]? = some stage' →
    stage.Active → stage'.Active → i = j
  fits : (∀ stage ∈ stages, ¬ stage.Failed) → ∀ stage ∈ stages, stage.Active →
    stage.Fits request P.state (Toggled liked (stages.countP Stage.completed))
  law : (∀ stage ∈ stages, ¬ stage.Failed) → (∀ stage ∈ stages, ¬ stage.Active) →
    (request.hasLiked P.state = true ↔ Toggled liked (stages.countP Stage.completed))

section Stages

variable {request : LikeDislikeRequest} {stage stage' : Stage} {e : AppEvent} {w w' : World}
  {liked : Prop}

/-- A run that makes a call is about to read, or between its read and its last write. -/
theorem Stage.Next.reading_or_active (h : Stage.Next request stage e stage') :
    stage.completed = false ∧ ¬ stage.Failed ∧ stage' ≠ .reading ∧
      (stage = .reading ∨ stage.Active) := by
  cases h <;> simp

/-- The program of a run between its read and its last write has not ended. -/
theorem Stage.Active.not_done (h : stage.Active) (b : Except Exc Bool × Unit) :
    stage.program request ≠ .done b := by
  cases stage with
  | deleting docs =>
    cases docs with
    | nil => exact h.elim
    | cons doc docs => exact nofun
  | dating => exact nofun
  | adding date => exact nofun
  | reading => exact h.elim
  | ended outcome => exact h.elim

/-- A call of a run that does not fail leaves it between its read and its last write, or is its last
write, after which the user likes the post if it did not like it before. -/
theorem Stage.Next.toggle (h : Stage.Next request stage e stage')
    (hstep : World.step w e.call e.reply = some w')
    (hread : stage = .reading → (request.hasLiked w = true ↔ liked))
    (hfits : stage.Active → stage.Fits request w liked) (hok : ¬ stage'.Failed) :
    (stage'.completed = false ∧ stage'.Active ∧ stage'.Fits request w' liked) ∨
      (stage'.completed = true ∧ ¬ stage'.Active ∧ (request.hasLiked w' = true ↔ ¬ liked)) := by
  cases h with
  | readFailed e => simp at hok
  | deleteFailed doc docs e => simp at hok
  | dateFailed e => simp at hok
  | addFailed date e => simp at hok
  | readNone =>
    simp only [World.step, World.perform] at hstep
    split at hstep <;> cases hstep
    rename_i hnone
    have hnot : request.hasLiked w = false := LikeDislikeRequest.hasLiked_eq_false.mpr hnone.symm
    refine .inl ⟨rfl, trivial, ?_, hnone.symm⟩
    rw [← hread rfl, hnot]
    exact Bool.false_ne_true
  | readLikes docs hdocs =>
    simp only [World.step, World.perform] at hstep
    split at hstep <;> cases hstep
    rename_i heval
    have heval' : docs = request.query.eval (w.firestore .likes) := heval
    obtain ⟨doc, rest, rfl⟩ := List.exists_cons_of_ne_nil hdocs
    have hliked : request.hasLiked w = true := by
      rw [LikeDislikeRequest.hasLiked, ← heval']
      rfl
    refine .inl ⟨rfl, trivial, (hread rfl).mp hliked, fun like hlike => ?_⟩
    rw [← heval'] at hlike
    exact List.mem_map_of_mem hlike
  | dated date =>
    cases hstep
    exact .inl ⟨rfl, trivial, hfits trivial⟩
  | deleted doc docs =>
    obtain ⟨hliked, hall⟩ := hfits trivial
    cases hstep
    have hrest : ∀ like ∈ request.query.eval ((w.eraseDoc .likes doc.id).firestore .likes),
        like.id ∈ docs.map (·.id) := by
      intro like hlike
      obtain ⟨hmem, hid⟩ := LikeDislikeRequest.mem_query_eraseDoc.mp hlike
      have hlisted := hall like hmem
      rw [List.map_cons] at hlisted
      exact (List.mem_cons.mp hlisted).resolve_left (Ne.symm hid)
    cases docs with
    | cons next docs => exact .inl ⟨rfl, trivial, hliked, hrest⟩
    | nil =>
      have hnone : request.hasLiked (w.eraseDoc .likes doc.id) = false :=
        LikeDislikeRequest.hasLiked_eq_false.mpr
          (List.eq_nil_iff_forall_not_mem.mpr fun like hlike => by simpa using hrest like hlike)
      refine .inr ⟨rfl, not_false, ?_⟩
      rw [hnone]
      exact iff_of_false Bool.false_ne_true (not_not.mpr hliked)
  | added date doc =>
    obtain ⟨hnot, -⟩ := hfits trivial
    simp only [World.step, World.perform] at hstep
    split at hstep <;> cases hstep
    exact .inr ⟨rfl, not_false, iff_of_true (request.hasLiked_setDoc_like ..) hnot⟩

end Stages

section Steps

variable {request : LikeDislikeRequest} {liked : Prop} {stages : List Stage} {w w' : World}
  {moves : List LikeMove} {k : Nat} {stage stage' : Stage} {c : Call} {r : Fallible Exc Ans c}

/-- Runs that have not started yet. -/
theorem ToggleInvariant.init (request : LikeDislikeRequest) (w : World) (k : Nat) :
    ToggleInvariant request (request.hasLiked w = true) (List.replicate k .reading) []
      ⟨w, List.replicate k (likeRun request)⟩ where
  threads := by
    rw [List.map_replicate]
    rfl
  fresh i stage hstage := iff_of_true (List.eq_of_mem_replicate (List.mem_of_getElem? hstage)) rfl
  one i j stage stage' hstage _ hactive := by
    rw [List.eq_of_mem_replicate (List.mem_of_getElem? hstage)] at hactive
    exact hactive.elim
  fits _ stage hstage hactive := by
    rw [List.eq_of_mem_replicate hstage] at hactive
    exact hactive.elim
  law _ _ := by simp [List.countP_replicate, Toggled]

/-- While a run makes a call, no other run is between its read and its last write. -/
theorem ToggleInvariant.others (hi : ToggleInvariant request liked stages moves
      ⟨w, stages.map (Stage.program request)⟩)
    (hguard : ReadsAlone moves ⟨w, stages.map (Stage.program request)⟩ ⟨k, ⟨c, r⟩⟩)
    (hstage : stages[k]? = some stage) (hnext : Stage.Next request stage ⟨c, r⟩ stage') {j : Nat}
    {other : Stage} (hne : k ≠ j) (hother : stages[j]? = some other) : ¬ other.Active := by
  intro hactive
  obtain ⟨-, -, -, rfl | hbusy⟩ := hnext.reading_or_active
  · have hfirst : eventsOf k moves = [] := (hi.fresh k _ hstage).mp rfl
    refine hguard hfirst j (Ne.symm hne) ⟨fun hempty => ?_, fun b hdone => ?_⟩
    · rw [(hi.fresh j other hother).mpr hempty] at hactive
      exact hactive
    · rw [List.getElem?_map, hother, Option.map_some] at hdone
      exact hactive.not_done b (Option.some.inj hdone)
  · exact hne (hi.one k j stage other hstage hother hbusy hactive)

/-- Once a run that may move has moved, it is the only one that can be between its read and its last
write. -/
theorem ToggleInvariant.active_after (hi : ToggleInvariant request liked stages moves
      ⟨w, stages.map (Stage.program request)⟩)
    (hguard : ReadsAlone moves ⟨w, stages.map (Stage.program request)⟩ ⟨k, ⟨c, r⟩⟩)
    (hstage : stages[k]? = some stage) (hnext : Stage.Next request stage ⟨c, r⟩ stage') {j : Nat}
    {other : Stage} (hother : (stages.set k stage')[j]? = some other) (hbusy : other.Active) :
    k = j ∧ stage' = other := by
  rcases getElem?_set_eq_some hother with hself | ⟨hne, hold⟩
  · exact hself
  · exact absurd hbusy (hi.others hguard hstage hnext hne hold)

/-- As long as no run has failed, the run that moves is on its way or has toggled the like. -/
theorem ToggleInvariant.toggle (hi : ToggleInvariant request liked stages moves
      ⟨w, stages.map (Stage.program request)⟩)
    (hguard : ReadsAlone moves ⟨w, stages.map (Stage.program request)⟩ ⟨k, ⟨c, r⟩⟩)
    (hstage : stages[k]? = some stage) (hnext : Stage.Next request stage ⟨c, r⟩ stage')
    (hstep : World.step w c r = some w') (hok : ∀ other ∈ stages.set k stage', ¬ other.Failed) :
    (stage'.completed = false ∧ stage'.Active ∧
        stage'.Fits request w' (Toggled liked (stages.countP Stage.completed))) ∨
      (stage'.completed = true ∧ ¬ stage'.Active ∧ (request.hasLiked w' = true ↔
        ¬ Toggled liked (stages.countP Stage.completed))) := by
  have hlt : k < stages.length := (List.getElem?_eq_some_iff.mp hstage).1
  obtain ⟨-, hnotFailed, -, -⟩ := hnext.reading_or_active
  -- every stage of before is that of the run that moves, or that of another run
  have hcases : ∀ other ∈ stages, other = stage ∨ ∃ j, k ≠ j ∧ stages[j]? = some other := by
    intro other hother
    obtain ⟨j, hj⟩ := List.mem_iff_getElem?.mp hother
    by_cases hkj : k = j
    · subst hkj
      exact .inl (Option.some.inj (hj.symm.trans hstage))
    · exact .inr ⟨j, hkj, hj⟩
  have hold : ∀ other ∈ stages, ¬ other.Failed := by
    intro other hother
    rcases hcases other hother with rfl | ⟨j, hne, hj⟩
    · exact hnotFailed
    · exact hok other (List.mem_of_getElem? (by rw [List.getElem?_set_ne hne]; exact hj))
  have hlaw : stage = .reading → (request.hasLiked w = true ↔
      Toggled liked (stages.countP Stage.completed)) := by
    intro hreading
    refine hi.law hold fun other hother => ?_
    rcases hcases other hother with rfl | ⟨j, hne, hj⟩
    · rw [hreading]
      exact not_false
    · exact hi.others hguard hstage hnext hne hj
  exact hnext.toggle hstep hlaw (hi.fits hold stage (List.mem_of_getElem? hstage))
    (hok _ (List.mem_of_getElem? (List.getElem?_set_self hlt)))

/-- One move of a run that reads alone keeps the invariant. -/
theorem ToggleInvariant.step (hi : ToggleInvariant request liked stages moves
      ⟨w, stages.map (Stage.program request)⟩)
    (hguard : ReadsAlone moves ⟨w, stages.map (Stage.program request)⟩ ⟨k, ⟨c, r⟩⟩)
    (hstage : stages[k]? = some stage) (hnext : Stage.Next request stage ⟨c, r⟩ stage')
    (hstep : World.step w c r = some w') :
    ToggleInvariant request liked (stages.set k stage') (moves ++ [⟨k, ⟨c, r⟩⟩])
      ⟨w', (stages.set k stage').map (Stage.program request)⟩ := by
  have hlt : k < stages.length := (List.getElem?_eq_some_iff.mp hstage).1
  have hself : (stages.set k stage')[k]? = some stage' := List.getElem?_set_self hlt
  obtain ⟨hrunning, -, hmoved, -⟩ := hnext.reading_or_active
  have hcount : (stages.set k stage').countP Stage.completed =
      stages.countP Stage.completed + if stage'.completed then 1 else 0 := by
    have hk : stages[k] = stage := (List.getElem?_eq_some_iff.mp hstage).2
    rw [List.countP_set hlt, hk, hrunning]
    rfl
  refine ⟨rfl, fun j other hother => ?_, fun i j stage₁ stage₂ h₁ h₂ hbusy₁ hbusy₂ => ?_,
    fun hok other hother hbusy => ?_, fun hok hidle => ?_⟩
  · rw [eventsOf_append]
    rcases getElem?_set_eq_some hother with ⟨rfl, rfl⟩ | ⟨hne, hold⟩
    · exact iff_of_false hmoved (by simp [eventsOf])
    · simpa [eventsOf, hne] using hi.fresh j other hold
  · obtain ⟨rfl, -⟩ := hi.active_after hguard hstage hnext h₁ hbusy₁
    exact (hi.active_after hguard hstage hnext h₂ hbusy₂).1
  · obtain ⟨j, hj⟩ := List.mem_iff_getElem?.mp hother
    obtain ⟨-, rfl⟩ := hi.active_after hguard hstage hnext hj hbusy
    rcases hi.toggle hguard hstage hnext hstep hok with ⟨hcompleted, -, hfits⟩ | ⟨-, hnot, -⟩
    · rw [hcount, hcompleted]
      exact hfits
    · exact absurd hbusy hnot
  · rcases hi.toggle hguard hstage hnext hstep hok with ⟨-, hbusy, -⟩ | ⟨hcompleted, -, hlaw⟩
    · exact absurd hbusy (hidle _ (List.mem_of_getElem? hself))
    · rw [hcount, hcompleted, if_pos rfl, toggled_succ]
      exact hlaw

end Steps

/-- The runs of a pool are at stages that meet the invariant. -/
theorem exists_toggleInvariant {request : LikeDislikeRequest} {k : Nat} {w : World}
    {moves : List LikeMove} {P : LikePool}
    (h : Pool.Steps World.step ReadsAlone ⟨w, List.replicate k (likeRun request)⟩ moves P) :
    ∃ stages, ToggleInvariant request (request.hasLiked w = true) stages moves P := by
  refine h.invariant (fun moves P => ∃ stages, ToggleInvariant request
    (request.hasLiked w = true) stages moves P) ⟨_, .init request w k⟩ ?_
  rintro moves ⟨w, threads⟩ m P' ⟨stages, hi⟩ hguard hstep
  obtain rfl : threads = stages.map (Stage.program request) := hi.threads
  cases hstep with
  | mk hthread haccept =>
    rw [List.getElem?_map, Option.map_eq_some_iff] at hthread
    obtain ⟨stage, hstage, hcall⟩ := hthread
    obtain ⟨stage', hnext, hrest⟩ := Stage.next_of_call hcall _
    rw [hrest, ← List.map_set]
    exact ⟨_, hi.step hguard hstage hnext haccept⟩

/-- Runs for one user and post, of which each reads when no other is between its read and its last
write: once all have returned `true`, the user likes the post if it was so before and their number
is even, or was not so and it is odd. -/
theorem hasLiked_iff_of_steps (request : LikeDislikeRequest) (k : Nat) {w : World}
    {moves : List LikeMove} {P : LikePool}
    (h : Pool.Steps World.step ReadsAlone ⟨w, List.replicate k (likeRun request)⟩ moves P)
    (hdone : ∀ p ∈ P.threads, p = .done (.ok true, ())) :
    request.hasLiked P.state = true ↔
      (request.hasLiked w = true ∧ Even k) ∨ (¬ request.hasLiked w = true ∧ Odd k) := by
  obtain ⟨stages, hi⟩ := exists_toggleInvariant h
  have hended : ∀ stage ∈ stages, stage.completed = true ∧ ¬ stage.Failed ∧ ¬ stage.Active := by
    intro stage hstage
    have hprogram : stage.program request = .done (.ok true, ()) :=
      hdone _ (by rw [hi.threads]; exact List.mem_map_of_mem hstage)
    cases stage with
    | ended outcome =>
      cases hprogram
      simp
    | deleting docs =>
      cases docs with
      | nil => simp
      | cons doc docs => cases hprogram
    | _ => cases hprogram
  have hcount : stages.countP Stage.completed = k := by
    rw [List.countP_eq_length.mpr fun stage hstage => (hended stage hstage).1,
      ← List.length_map (Stage.program request), ← hi.threads, h.length_threads,
      List.length_replicate]
  have hlaw := hi.law (fun stage hstage => (hended stage hstage).2.1)
    fun stage hstage => (hended stage hstage).2.2
  rwa [hcount] at hlaw

/-- The test for a run that has not read yet or has completed. -/
def idle : Program (Fallible Exc Ans) (Except Exc Bool × Unit) → Bool
  | .done _ => true
  | .call (.get _) _ => true
  | .call _ _ => false

/-- A run reads alone when all others are idle. -/
theorem readsAlone_of_idle {request : LikeDislikeRequest} {k : Nat} {w : World}
    {moves : List LikeMove} {P : LikePool} {m : LikeMove}
    (h : Pool.Steps World.step ReadsAlone ⟨w, List.replicate k (likeRun request)⟩ moves P)
    (hidle : ∀ i < k, i ≠ m.thread → P.threads[i]?.all idle = true) : ReadsAlone moves P m := by
  rintro - i hne ⟨hmoved, hrunning⟩
  by_cases hi : i < k
  · obtain ⟨stages, hinv⟩ := exists_toggleInvariant h
    have hlt : i < P.threads.length := by
      rw [h.length_threads, List.length_replicate]
      exact hi
    have htest := hidle i hi hne
    rw [hinv.threads, List.length_map] at hlt
    have hstage : stages[i]? = some stages[i] := List.getElem?_eq_getElem hlt
    generalize stages[i] = stage at hstage
    have hthread : P.threads[i]? = some (stage.program request) := by
      rw [hinv.threads, List.getElem?_map, hstage, Option.map_some]
    rw [hthread, Option.all_some] at htest
    cases stage with
    | reading => exact hmoved ((hinv.fresh i _ hstage).mp rfl)
    | ended outcome => exact hrunning _ hthread
    | deleting docs =>
      cases docs with
      | nil => exact hrunning _ hthread
      | cons doc docs => cases htest
    | dating => cases htest
    | adding date => cases htest
  · exact hmoved (h.eventsOf_eq_nil (by simpa using hi))

/-- Three taps one after another, from a post that the user does not like. -/
theorem hasLiked_iff_of_steps_three_taps : ∃ moves P,
    Pool.Steps World.step ReadsAlone
      ⟨World.initial, List.replicate 3 (likeRun ⟨"p", "u"⟩)⟩ moves P ∧
    LikeDislikeRequest.hasLiked ⟨"p", "u"⟩ P.state = true := by
  have hexec : (Pool.exec World.step World.working (fun P m => (List.range 3).all fun i =>
      i = m.thread || P.threads[i]?.all idle) [0, 0, 0, 1, 1, 2, 2, 2] []
        ⟨World.initial, List.replicate 3 (likeRun ⟨"p", "u"⟩)⟩).any
          (fun r => r.2.threads.all (Program.returned (.ok true, ()))) = true := by
    decide +kernel
  obtain ⟨moves, P, hsteps, hdone⟩ := Pool.exec_any_of_steps (fun moves P m h hcheck =>
    readsAlone_of_idle h fun i hi hne => by
      have htest := List.all_eq_true.mp hcheck i (List.mem_range.mpr hi)
      simpa [hne] using htest) hexec
  refine ⟨moves, P, hsteps, (hasLiked_iff_of_steps ⟨"p", "u"⟩ 3 hsteps fun p hp =>
    Program.eq_done_of_returned (List.all_eq_true.mp hdone p hp)).mpr (.inr ⟨?_, by decide⟩)⟩
  decide +kernel

/-- Two taps of one user that both read before either adds are one like. -/
theorem not_hasLiked_iff_of_two_taps :
    ¬ ∀ (request : LikeDislikeRequest) (k : Nat) (w : World) (moves : List LikeMove)
      (P : LikePool),
      Pool.Steps World.step (fun _ _ _ => True)
        ⟨w, List.replicate k (likeRun request)⟩ moves P →
      (∀ p ∈ P.threads, p = .done (.ok true, ())) →
      (request.hasLiked P.state = true ↔
        (request.hasLiked w = true ∧ Even k) ∨ (¬ request.hasLiked w = true ∧ Odd k)) := by
  intro hall
  have hexec : (Pool.exec World.step World.working (fun _ _ => true) [0, 1, 0, 0, 1, 1] []
      ⟨World.initial, List.replicate 2 (likeRun ⟨"p", "u"⟩)⟩).any (fun r =>
        r.2.threads.all (Program.returned (.ok true, ())) &&
          LikeDislikeRequest.hasLiked ⟨"p", "u"⟩ r.2.state) = true := by decide +kernel
  obtain ⟨moves, P, hsteps, htest⟩ := Pool.exec_any (fun _ _ _ _ => trivial) hexec
  obtain ⟨hdone, hliked⟩ := (Bool.and_eq_true _ _).mp htest
  have hlaw := (hall ⟨"p", "u"⟩ 2 World.initial moves P hsteps fun p hp =>
    Program.eq_done_of_returned (List.all_eq_true.mp hdone p hp)).mp hliked
  rcases hlaw with ⟨hbefore, -⟩ | ⟨-, hodd⟩
  · exact absurd hbefore (by decide +kernel)
  · exact absurd hodd (by decide)

end TekkGram
