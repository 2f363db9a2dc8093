import TekkGram.Auth.Agreement
import TekkGram.Users.Profiles

/-!
# The profile of who is logged in

A login looks for the user's profile and has a missing one saved. Saving answers `false` when it
fails, and the login does not look at the answer, so that the state says `success` also for a user
whose profile could not be stored.
-/

namespace TekkGram

open Interaction Async

/-- The profile of a user is stored. -/
def World.HasProfile (w : World) (userId : UserId) : Prop :=
  ∃ (id : String) (d : Doc), (w.firestore .users)[id]? = some d ∧
    d.field FirebaseFieldName.userId = .string userId

/-- Whoever is logged in has a profile. -/
def LoggedInWithProfile (w : World) : Prop :=
  isLoggedIn w = true → ∃ userId, w.authState.userId = some userId ∧ w.HasProfile userId

/-- Calls with which `saveUserInfo` looks for a profile or adds it. -/
@[simp] def Call.SavesProfile : Call → Prop
  | .get _ => True
  | .add _ _ => True
  | _ => False

/-- A login of a user without a profile, whose first query returns, saves the profile. -/
def AuthOperation.KeepsProfile (op : AuthOperation) (before : World) (tr : List AppEvent) : Prop :=
  match op with
  | .loginWithGoogle => ∀ user, Returned (SignsIn user) tr → ¬ before.HasProfile user.uid →
    ¬ FirstQueryFailed tr → ¬ Raised Call.SavesProfile tr
  | .logOut => True
  | .updateUserInfo .. => True

/-- The app before anybody has signed in. -/
structure SignedOut (w : World) : Prop where
  authState : w.authState = .unknown
  currentUser : w.currentUser = none

/-- Calls that neither remove a profile nor change whose it is. -/
def Call.KeepsProfiles (c : Call) : Prop :=
  c.Keeps .users ∨ (∃ payload : Doc, c = .add .users payload) ∨
    ∃ id fields, c = .update .users id fields ∧ UserInfoStorage.SavedFields fields

section HasProfile

variable {w w' : World} {userId : UserId}

@[simp] theorem World.setAuthState_hasProfile {state : AuthState} :
    (w.setAuthState state).HasProfile userId ↔ w.HasProfile userId := Iff.rfl

@[simp] theorem World.setCurrentUser_hasProfile {user : Option FirebaseUser} :
    (w.setCurrentUser user).HasProfile userId ↔ w.HasProfile userId := Iff.rfl

/-- The query for a profile finds none exactly when none is stored. -/
theorem UserInfoStorage.profileOf_eval_eq_nil :
    (UserInfoStorage.profileOf userId).eval (w.firestore .users) = [] ↔ ¬ w.HasProfile userId := by
  rw [Query.eval_eq_nil_iff (by simp [UserInfoStorage.profileOf])]
  simp [UserInfoStorage.profileOf, Query.selects, World.HasProfile]

/-- A profile that is added is stored. -/
theorem World.HasProfile.of_add {id displayName : String} {t : Timestamp}
    {email phone imageUrl : Option String} :
    (w.setDoc .users id ((userInfoPayload userId (some displayName) email phone
      imageUrl).resolve t)).HasProfile userId := by
  refine ⟨id, _, by rw [World.setDoc_firestore, Function.update_self, Collection.getElem?_insert,
    if_pos rfl], ?_⟩
  rw [Doc.field_resolve]
  simp [userInfoPayload, Doc.field]

/-- No call of the notifier takes a profile away. -/
theorem Call.KeepsProfiles.hasProfile {c : Call} {r : Fallible Exc Ans c} (hc : c.KeepsProfiles)
    (hstep : World.step w c r = some w') (h : w.HasProfile userId) : w'.HasProfile userId := by
  cases r with
  | error e => exact World.step_error hstep ▸ h
  | ok a =>
    obtain ⟨id, d, hd, huser⟩ := h
    rcases hc with hkeeps | ⟨payload, rfl⟩ | ⟨id', fields, rfl, hfields⟩
    · exact ⟨id, d, by rw [hkeeps.firestore hstep, hd], huser⟩
    · simp only [World.step, World.perform] at hstep
      split at hstep <;> cases hstep
      rename_i hnew
      refine ⟨id, d, ?_, huser⟩
      have hne : a.id ≠ id := by
        rintro rfl
        exact hnew (Std.ExtTreeMap.mem_iff_isSome_getElem?.mpr (by rw [hd, Option.isSome_some]))
      rw [World.setDoc_firestore, Function.update_self, Collection.getElem?_insert_of_ne hne, hd]
    · simp only [World.step, World.perform] at hstep
      split at hstep <;> cases hstep
      rename_i d' hd'
      by_cases hid : id' = id
      · subst hid
        obtain rfl := Option.some.inj (hd'.symm.trans hd)
        refine ⟨id', d'.merge fields, ?_, (hfields.userId d').trans huser⟩
        rw [World.setDoc_firestore, Function.update_self, Collection.getElem?_insert, if_pos rfl]
      · refine ⟨id, d, ?_, huser⟩
        rw [World.setDoc_firestore, Function.update_self, Collection.getElem?_insert_of_ne hid, hd]

end HasProfile

/-- A missing profile is stored unless looking for it or adding it fails. -/
theorem UserInfoStorage.saveUserInfo_profile {σ : Type} (userId : UserId) (displayName : String)
    (email phone imageUrl : Option String) (s : σ) {w : World} (hnone : ¬ w.HasProfile userId) :
    (saveUserInfo userId displayName email phone imageUrl : Action σ Bool).wp World.step
      (fun tr _ _ w' => w'.HasProfile userId ↔ ¬ Raised Call.SavesProfile tr) s w := by
  unfold saveUserInfo updateOrAdd
  rw [wp_tryCatch, wp_bind, wp_get_query]
  constructor
  · rw [ends_error, ends_error, wp_pure]
    simpa using hnone
  · have hquery : (profileOf userId).eval (w.firestore (profileOf userId).collection) = [] :=
      profileOf_eval_eq_nil.mpr hnone
    rw [ends_ok, hquery, wp_bind, wp_add]
    constructor
    · rw [ends_error, ends_error, wp_pure]
      simpa using hnone
    · intro id t hnew
      rw [ends_ok, wp_pure, ends_ok]
      simpa using World.HasProfile.of_add

namespace AuthStateNotifier

/-- The fields of the current user do not matter. -/
theorem saveUserInfo_profile (userId : UserId) (s : Unit) {w : World}
    (hnone : ¬ w.HasProfile userId) : (saveUserInfo userId).wp World.step
      (fun tr _ _ w' => w'.HasProfile userId ↔ ¬ Raised Call.SavesProfile tr) s w := by
  unfold saveUserInfo Authenticator.displayName Authenticator.email Authenticator.phone
    Authenticator.imageUrl
  rw [wp_bind, wp_bind, wp_currentUser, ends_ok, wp_pure, ends_ok]
  rw [wp_bind, wp_bind, wp_currentUser, ends_ok, wp_pure, ends_ok]
  rw [wp_bind, wp_bind, wp_currentUser, ends_ok, wp_pure, ends_ok]
  rw [wp_bind, wp_bind, wp_currentUser, ends_ok, wp_pure, ends_ok]
  refine wp_bind.mpr (wp_mono (wp_and (UserInfoStorage.saveUserInfo_spec _ _ _ _ _ s w)
    (UserInfoStorage.saveUserInfo_profile _ _ _ _ _ s hnone)) ?_)
  rintro tr out s' w' ⟨⟨⟨saved, rfl⟩, -⟩, hprofile⟩
  rw [ends_ok, wp_pure]
  simpa using hprofile

/-- A user has a profile after the query when there was one, or when a missing one is saved. -/
theorem createProfile_profile (userId : UserId) (s : Unit) (w : World) :
    (createProfile userId).wp World.step (fun tr _ _ w' => ¬ FirstQueryFailed tr →
      (w'.HasProfile userId ↔ w.HasProfile userId ∨ ¬ Raised Call.SavesProfile tr)) s w := by
  rw [createProfile, wp_bind, wp_get_query]
  constructor
  · rw [ends_error]
    intro hqueried
    simp [FirstQueryFailed] at hqueried
  · rw [ends_ok]
    generalize hdocs : (UserInfoStorage.profileOf userId).eval _ = docs
    by_cases hnew : docs = []
    · have hnone : ¬ w.HasProfile userId :=
        UserInfoStorage.profileOf_eval_eq_nil.mp (hdocs.trans hnew)
      rw [if_pos hnew]
      refine wp_mono (saveUserInfo_profile userId s hnone) ?_
      intro tr out s' w' hprofile _
      simpa [hnone] using hprofile
    · have hprofile : w.HasProfile userId := by
        by_contra hnone
        exact hnew (hdocs.symm.trans (UserInfoStorage.profileOf_eval_eq_nil.mpr hnone))
      rw [if_neg hnew, wp_pure]
      exact fun _ => iff_of_true hprofile (.inl hprofile)

/-- A user who signs in and whose first query returns has a profile afterwards when there was one,
or when a missing one is saved. -/
theorem loginWithGoogle_profile (s : Unit) (w : World) :
    loginWithGoogle.wp World.step (fun tr _ _ w' => ∀ user, Returned (SignsIn user) tr →
      ¬ FirstQueryFailed tr →
        (w'.HasProfile user.uid ↔ w.HasProfile user.uid ∨ ¬ Raised Call.SavesProfile tr)) s w := by
  unfold loginWithGoogle
  rw [wp_bind, wp_setIsLoading, ends_ok]
  refine wp_bind.mpr (wp_mono (wp_and (Authenticator.loginWithGoogle_spec s _)
    (wp_calls Authenticator.loginWithGoogle_calls s _)) ?_)
  rintro tr out s' w' ⟨⟨-, hraised, hreturned, ⟨result, rfl, hresult, rfl, hnobody⟩ |
    ⟨user, rfl, rfl, huser⟩⟩, hcalls⟩
  · rw [ends_ok, wp_bind, wp_userId, ends_ok, wp_bind, createProfileAfter_of_ne hresult, wp_pure,
      ends_ok, wp_setAuthState]
    intro user hsigned
    simp [hnobody] at hsigned
  · have hsaves : ¬ Raised Call.SavesProfile tr :=
      not_raised_of_calls hcalls fun call hgoogle => by cases call <;> simp at hgoogle ⊢
    rw [ends_ok, wp_bind, wp_userId, ends_ok]
    refine wp_bind.mpr (wp_mono (wp_and (createProfile_spec user.uid s' _)
      (createProfile_profile user.uid s' _)) ?_)
    rintro tr' out s'' w' ⟨⟨-, hnobody, ⟨rfl, hfailed⟩ | ⟨rfl, hqueried⟩⟩, hprofile⟩
    · rw [ends_error]
      intro user' _ hqueried
      refine absurd ?_ hqueried
      simpa [FirstQueryFailed, hraised, hreturned] using hfailed
    · rw [ends_ok, wp_setAuthState]
      intro user' hsigned _
      obtain rfl : user' = user := by simpa [huser, hnobody] using hsigned
      have hiff := hprofile fun hfailed => hfailed.2 hqueried
      simpa [hsaves] using hiff

end AuthStateNotifier

section Calls

theorem UserInfoStorage.saveUserInfo_keepsProfiles {σ : Type} (userId : UserId)
    (displayName : String) (email phone imageUrl : Option String) :
    (saveUserInfo userId displayName email phone imageUrl : Action σ Bool).Calls
      Call.KeepsProfiles := by
  refine calls_tryCatch (calls_bind (calls_call (.inl trivial)) fun userInfo => ?_) fun _ =>
    calls_pure
  cases userInfo with
  | nil => exact calls_bind (calls_call (.inr (.inl ⟨_, rfl⟩))) fun _ => calls_pure
  | cons doc docs =>
    exact calls_bind (calls_call (.inr (.inr ⟨_, _, rfl, _, _, _, _, rfl⟩))) fun _ => calls_pure

/-- The calls of the notifier's operations keep the profiles. -/
theorem AuthOperation.calls (op : AuthOperation) : op.program.Calls Call.KeepsProfiles := by
  have hkeeps : ∀ {α : Type} {m : Action Unit α}, m.Calls (Call.Keeps .users) →
      m.Calls Call.KeepsProfiles := fun hm => hm.mono fun _ => .inl
  have hloading := fun isLoading => hkeeps (AuthStateNotifier.setIsLoading_calls isLoading)
  have hcurrentUser := fun {α : Type} (f : Option FirebaseUser → α) =>
    hkeeps (AuthStateNotifier.currentUser_calls f)
  cases op with
  | loginWithGoogle =>
    refine calls_bind (hloading true) (fun _ => ?_) ()
    refine calls_bind (hkeeps (Authenticator.loginWithGoogle_calls.mono fun c hc => hc.keeps _))
      fun result => ?_
    refine calls_bind (hcurrentUser _) fun userId => ?_
    refine calls_bind ?_ fun _ => calls_call (.inl trivial)
    unfold AuthStateNotifier.createProfileAfter
    split
    · refine calls_bind (calls_call (.inl trivial)) fun userInfo => ?_
      split
      · refine calls_bind (hcurrentUser _) fun displayName => ?_
        refine calls_bind (hcurrentUser _) fun email => ?_
        refine calls_bind (hcurrentUser _) fun phone => ?_
        refine calls_bind (hcurrentUser _) fun imageUrl => ?_
        exact calls_bind (UserInfoStorage.saveUserInfo_keepsProfiles _ _ _ _ _) fun _ => calls_pure
      · exact calls_pure
    · exact calls_pure
  | logOut =>
    refine calls_bind (hloading true) (fun _ => ?_) ()
    refine calls_bind ?_ fun _ => calls_call (.inl trivial)
    exact calls_bind (calls_call (.inl trivial)) fun _ => calls_call (.inl trivial)
  | updateUserInfo userId displayName phone imageUrl =>
    refine calls_bind (calls_bind (hloading true) fun _ => ?_) (fun _ => calls_pure) ()
    refine calls_bind (hcurrentUser _) fun email => ?_
    refine calls_bind (UserInfoStorage.saveUserInfo_keepsProfiles _ _ _ _ _) fun result => ?_
    exact calls_bind (hloading false) fun _ => calls_pure

end Calls

/-- No operation takes a profile away. -/
theorem AuthOperation.hasProfile {op : AuthOperation} {w w' : World} {tr : List AppEvent}
    {out : Except Exc Unit × Unit} (hrun : Runs World.step w op.program tr out w')
    {userId : UserId} (h : w.HasProfile userId) : w'.HasProfile userId :=
  hrun.invariant op.calls (fun _ _ _ _ hc hstep hprofile => hc.hasProfile hstep hprofile) h

/-- One operation leaves whoever is logged in with a profile exactly when it meets its condition. -/
theorem loggedInWithProfile_step {w w' : World} {op : AuthOperation} {tr : List AppEvent}
    {out : Except Exc Unit × Unit} (h : LoggedInWithProfile w)
    (hrun : Runs World.step w op.program tr out w') :
    LoggedInWithProfile w' ↔ op.KeepsProfile w tr := by
  have hkept : ∀ isLoading, w'.authState = w.authState.copiedWithIsLoading isLoading →
      LoggedInWithProfile w' := by
    intro isLoading hstate hlogged
    rw [isLoggedIn, hstate] at hlogged
    obtain ⟨userId, huser, hprofile⟩ := h hlogged
    exact ⟨userId, by rw [hstate]; exact huser, AuthOperation.hasProfile hrun hprofile⟩
  have hnobody : w'.authState.result ≠ some .success → LoggedInWithProfile w' :=
    fun hresult hlogged => absurd (of_decide_eq_true hlogged) hresult
  cases op with
  | updateUserInfo userId displayName phone imageUrl =>
    have hspec := wp_ignoreValue (AuthStateNotifier.updateUserInfo_spec userId displayName phone
      imageUrl () w)
    obtain ⟨hstate, -⟩ := hspec.elim hrun
    exact iff_of_true (hkept _ hstate) trivial
  | logOut =>
    obtain ⟨-, -, hstate, -⟩ | ⟨-, -, hstate, -⟩ | ⟨-, -, hstate, -⟩ :=
      wp.elim (AuthStateNotifier.logOut_spec () w) hrun
    · exact iff_of_true (hkept _ hstate) trivial
    · exact iff_of_true (hkept _ hstate) trivial
    · exact iff_of_true (hnobody (by simp [hstate, AuthState.unknown])) trivial
  | loginWithGoogle =>
    obtain ⟨result, hresult, hsigned, -, -, hstate⟩ | ⟨user, hsigned, -,
      ⟨hfailed, hstate⟩ | ⟨hqueried, hstate⟩⟩ :=
      wp.elim (AuthStateNotifier.loginWithGoogle_spec () w) hrun
    · refine iff_of_true (hnobody (by simpa [hstate] using hresult)) ?_
      exact fun user hreturned => absurd hreturned (hsigned user)
    · exact iff_of_true (hkept _ hstate) fun _ _ _ hqueried => absurd hfailed hqueried
    · have hprofile := wp.elim (AuthStateNotifier.loginWithGoogle_profile () w) hrun user
        ((hsigned user).mpr rfl) hqueried
      have hlogged : LoggedInWithProfile w' ↔ w'.HasProfile user.uid := by
        simp [LoggedInWithProfile, isLoggedIn, hstate]
      rw [hlogged, hprofile]
      simp only [AuthOperation.KeepsProfile, hsigned, forall_eq, hqueried, not_false_eq_true,
        true_implies]
      exact or_iff_not_imp_left

/-- Starting signed out, whoever is logged in between two operations has a profile exactly when
every operation of the run meets its condition. -/
theorem loggedInWithProfile_iff_of_session {w₀ w' : World} (hout : SignedOut w₀)
    {past : List AuthStep}
    (h : Session World.step AuthOperation.program (fun _ _ => True) w₀ past w') :
    ((∀ step ∈ past, LoggedInWithProfile step.before) ∧ LoggedInWithProfile w') ↔
      ∀ step ∈ past, step.op.KeepsProfile step.before step.trace := by
  refine h.state_iff LoggedInWithProfile
    (fun step => step.op.KeepsProfile step.before step.trace) ?_
    fun _ _ _ _ _ => loggedInWithProfile_step
  intro hlogged
  simp [isLoggedIn, hout.authState, AuthState.unknown] at hlogged

/-- Somebody logs in for the first time, with every call succeeding, and logs out again. -/
theorem loggedInWithProfile_iff_of_session_login : ∃ past w',
    Session World.step AuthOperation.program (fun _ _ => True) World.initial past w' ∧
      past.map (·.op) = [.loginWithGoogle, .logOut] ∧
      ∀ step ∈ past, LoggedInWithProfile step.before := by
  have hexec : (AuthOperation.loginWithGoogle.program.exec World.step World.working 0
      World.initial).any (fun r => ¬ Raised (fun _ => True) r.1 &&
        (AuthOperation.logOut.program.exec World.step World.working 0 r.2.2).any fun _ => true) =
      true := by decide +kernel
  obtain ⟨tr, out, w, hlogin, hcheck⟩ := Program.exec_any hexec
  obtain ⟨hworked, hcheck⟩ := (Bool.and_eq_true _ _).mp hcheck
  obtain ⟨tr', out', w', hlogout, -⟩ := Program.exec_any hcheck
  have hsession : Session World.step AuthOperation.program (fun _ _ => True) World.initial
      ([⟨World.initial, .loginWithGoogle, tr, out⟩] ++ [⟨w, .logOut, tr', out'⟩]) w' :=
    .snoc (.single hlogin trivial) hlogout trivial
  refine ⟨_, w', hsession, rfl, ((loggedInWithProfile_iff_of_session ⟨rfl, rfl⟩ hsession).mpr
    ?_).1⟩
  refine List.forall_mem_append.mpr ⟨?_, ?_⟩ <;> refine List.forall_mem_singleton.mpr ?_
  · rintro user _ _ _ ⟨call, e, hmem, -⟩
    exact of_decide_eq_true hworked ⟨call, e, hmem, trivial⟩
  · trivial

/-- A first login whose profile cannot be added ends logged in, without a profile. -/
theorem not_loggedInWithProfile_of_failed_add :
    ¬ ∀ w₀ past w', SignedOut w₀ →
      Session World.step AuthOperation.program (fun _ _ => True) w₀ past w' →
      LoggedInWithProfile w' := by
  intro hall
  have hexec : (AuthOperation.loginWithGoogle.program.exec World.step (World.failingAt 12) 0
      World.initial).any (fun r => isLoggedIn r.2.2 && (r.2.2.firestore .users).isEmpty) =
      true := by decide +kernel
  obtain ⟨tr, out, w, hlogin, hcheck⟩ := Program.exec_any hexec
  obtain ⟨hlogged, hempty⟩ := (Bool.and_eq_true _ _).mp hcheck
  obtain ⟨userId, -, id, d, hd, -⟩ := hall World.initial _ w ⟨rfl, rfl⟩
    (.single hlogin trivial) hlogged
  rw [Std.ExtTreeMap.isEmpty_iff.mp hempty] at hd
  simp at hd

end TekkGram
