import TekkGram.Interaction.Session
import TekkGram.Model.Working
import TekkGram.Notifiers.Auth

/-!
# The login state and the authentication backend

The notifier's state repeats what Firebase knows: whether somebody is signed in, and who.
Three failures separate the two, since the state is written last and only if nothing threw: a
Google sign-out that fails after Firebase's own, a profile query that fails after a sign-in, and
a sign-in that is given up while somebody is logged in.
-/

namespace TekkGram

open Interaction Async

/-- `isLoggedInProvider`. -/
def isLoggedIn (w : World) : Bool := w.authState.result = some .success

/-- The notifier and Firebase agree on who is logged in. -/
structure Agreement (w : World) : Prop where
  loggedIn : isLoggedIn w = true ↔ w.currentUser.isSome = true
  userId : w.authState.userId = w.currentUser.map (·.uid)

/-- The operations of the authentication notifier. -/
inductive AuthOperation where
  | loginWithGoogle
  | logOut
  | updateUserInfo (userId : UserId) (displayName : String) (phone imageUrl : Option String)
  deriving DecidableEq, Repr

/-- The program of an operation, whose value is not looked at. -/
def AuthOperation.program (op : AuthOperation) :
    Program (Fallible Exc Ans) (Except Exc Unit × Unit) :=
  match op with
  | .loginWithGoogle => AuthStateNotifier.loginWithGoogle ()
  | .logOut => AuthStateNotifier.logOut ()
  | .updateUserInfo userId displayName phone imageUrl =>
    ignoreValue (AuthStateNotifier.updateUserInfo userId displayName phone imageUrl) ()

/-- A completed operation of a session. -/
abbrev AuthStep := Completed World AuthOperation (Fallible Exc Ans) (Except Exc Unit × Unit)

/-- An operation that could separate the two finds nobody signed in before it, or, when it fails
after a sign-in, the same user. -/
def AuthOperation.KeepsAgreement (op : AuthOperation) (before : World) (tr : List AppEvent) :
    Prop :=
  match op with
  | .loginWithGoogle =>
    ((∀ user, ¬ Returned (SignsIn user) tr) → before.currentUser = none) ∧
      ∀ user, Returned (SignsIn user) tr → FirstQueryFailed tr →
        before.currentUser.map (·.uid) = some user.uid
  | .logOut => Raised (· = .googleSignOut) tr → before.currentUser = none
  | .updateUserInfo .. => True

section Agreement

variable {w w' : World}

/-- Nobody is logged in, on both sides. -/
theorem Agreement.of_none (hresult : w.authState.result ≠ some .success)
    (huserId : w.authState.userId = none) (hnone : w.currentUser = none) : Agreement w where
  loggedIn := by simp [isLoggedIn, hresult, hnone]
  userId := by rw [huserId, hnone, Option.map_none]

/-- The same user is logged in, on both sides. -/
theorem Agreement.of_some {user : FirebaseUser} (hresult : w.authState.result = some .success)
    (huserId : w.authState.userId = some user.uid) (huser : w.currentUser = some user) :
    Agreement w where
  loggedIn := by simp [isLoggedIn, hresult, huser]
  userId := by rw [huserId, huser, Option.map_some]

/-- With a notifier that has seen neither, agreement needs a backend without a user. -/
theorem agreement_iff_of_unsuccessful (hresult : w.authState.result ≠ some .success)
    (huserId : w.authState.userId = w.currentUser.map (·.uid)) :
    Agreement w ↔ w.currentUser = none := by
  constructor
  · intro h
    have hnone : ¬ w.currentUser.isSome = true := by
      rw [← h.loggedIn]
      simpa [isLoggedIn] using hresult
    simpa using hnone
  · intro hnone
    exact .of_none hresult (by rw [huserId, hnone, Option.map_none]) hnone

/-- Agreement is kept when only the loading flag changes. -/
theorem Agreement.of_isLoading (h : Agreement w) {isLoading : Bool}
    (hstate : w'.authState = w.authState.copiedWithIsLoading isLoading)
    (huser : w'.currentUser = w.currentUser) : Agreement w' := by
  refine ⟨?_, ?_⟩
  · rw [isLoggedIn, hstate, huser]
    exact h.loggedIn
  · rw [hstate, huser]
    exact h.userId

/-- When the current user changes behind the notifier, agreement needs the same user id. -/
theorem Agreement.iff_of_currentUser (h : Agreement w) {isLoading : Bool}
    (hstate : w'.authState = w.authState.copiedWithIsLoading isLoading) :
    Agreement w' ↔ w.currentUser.map (·.uid) = w'.currentUser.map (·.uid) := by
  have huserId : w'.authState.userId = w.currentUser.map (·.uid) := by
    rw [hstate]
    exact h.userId
  constructor
  · intro h'
    exact huserId.symm.trans h'.userId
  · intro hsame
    have hsome : w.currentUser.isSome = w'.currentUser.isSome := by
      simpa using congrArg Option.isSome hsame
    refine ⟨?_, huserId.trans hsame⟩
    rw [isLoggedIn, hstate, ← hsome]
    exact h.loggedIn

end Agreement

/-- The constructor brings the notifier into agreement. -/
theorem agreement_create {w w₀ : World} {tr : List AppEvent} {out : Except Exc Unit × Unit}
    (h : Runs World.step w (AuthStateNotifier.create ()) tr out w₀) : Agreement w₀ := by
  obtain ⟨huser, hstate⟩ := wp.elim (AuthStateNotifier.create_spec () w) h
  cases hcurrent : w.currentUser with
  | none =>
    rw [hcurrent] at huser hstate
    exact .of_none (by simp [hstate, AuthState.unknown]) (by simp [hstate, AuthState.unknown]) huser
  | some user =>
    rw [hcurrent] at huser hstate
    exact .of_some (by rw [hstate]) (by rw [hstate]) huser

/-- One operation keeps the agreement exactly when it meets its condition. -/
theorem agreement_step {w w' : World} {op : AuthOperation} {tr : List AppEvent}
    {out : Except Exc Unit × Unit} (h : Agreement w)
    (hrun : Runs World.step w op.program tr out w') :
    Agreement w' ↔ op.KeepsAgreement w tr := by
  cases op with
  | updateUserInfo userId displayName phone imageUrl =>
    have hspec := wp_ignoreValue (AuthStateNotifier.updateUserInfo_spec userId displayName phone
      imageUrl () w)
    obtain ⟨hstate, huser⟩ := hspec.elim hrun
    exact iff_of_true (h.of_isLoading hstate huser) trivial
  | logOut =>
    obtain ⟨-, hnot, hstate, huser⟩ | ⟨-, hraised, hstate, hnone⟩ | ⟨-, hnot, hstate, hnone⟩ :=
      wp.elim (AuthStateNotifier.logOut_spec () w) hrun
    · exact iff_of_true (h.of_isLoading hstate huser) fun hraised => absurd hraised hnot
    · rw [h.iff_of_currentUser hstate, hnone]
      simp [AuthOperation.KeepsAgreement, hraised]
    · refine iff_of_true ?_ fun hraised => absurd hraised hnot
      exact .of_none (by simp [hstate, AuthState.unknown]) (by simp [hstate, AuthState.unknown])
        hnone
  | loginWithGoogle =>
    obtain ⟨result, hresult, hnobody, hqueried, huser, hstate⟩ | ⟨user, hsigned, huser,
      ⟨hfailed, hstate⟩ | ⟨hqueried, hstate⟩⟩ :=
      wp.elim (AuthStateNotifier.loginWithGoogle_spec () w) hrun
    · rw [agreement_iff_of_unsuccessful (by simpa [hstate] using hresult) (by rw [hstate, huser]),
        huser]
      simp [AuthOperation.KeepsAgreement, hnobody]
    · rw [h.iff_of_currentUser hstate, huser]
      simp [AuthOperation.KeepsAgreement, hsigned, hfailed]
    · refine iff_of_true (.of_some (by rw [hstate]) (by rw [hstate]) huser) ?_
      simp [AuthOperation.KeepsAgreement, hsigned, hqueried]

/-- From the constructor on, notifier and backend agree in every state of a run between two
operations exactly when every operation of the run meets its condition. -/
theorem agreement_iff_of_session {w w₀ w' : World} {tr : List AppEvent}
    {out : Except Exc Unit × Unit}
    (hcreate : Runs World.step w (AuthStateNotifier.create ()) tr out w₀) {past : List AuthStep}
    (h : Session World.step AuthOperation.program (fun _ _ => True) w₀ past w') :
    ((∀ step ∈ past, Agreement step.before) ∧ Agreement w') ↔
      ∀ step ∈ past, step.op.KeepsAgreement step.before step.trace := by
  exact h.state_iff Agreement (fun step => step.op.KeepsAgreement step.before step.trace)
    (agreement_create hcreate) fun _ _ _ _ _ => agreement_step

/-- Somebody logs in on a fresh start and logs out again, with every call succeeding. -/
theorem agreement_iff_of_session_login :
    ∃ w₀ past w', Session World.step AuthOperation.program (fun _ _ => True) w₀ past w' ∧
      past.map (·.op) = [.loginWithGoogle, .logOut] ∧
      (∀ step ∈ past, Agreement step.before) ∧ Agreement w' := by
  have hexec : ((AuthStateNotifier.create ()).exec World.step World.working 0 World.initial).any
      (fun r => r.2.2.currentUser = none &&
        (AuthOperation.loginWithGoogle.program.exec World.step World.working 0 r.2.2).any
          fun r' => ¬ Raised (fun _ => True) r'.1 &&
            (AuthOperation.logOut.program.exec World.step World.working 0 r'.2.2).any fun r'' =>
              ¬ Raised (fun _ => True) r''.1) = true := by decide +kernel
  obtain ⟨tr₀, out₀, w₀, hcreate, hcheck⟩ := Program.exec_any hexec
  obtain ⟨hnobody, hcheck⟩ := (Bool.and_eq_true _ _).mp hcheck
  obtain ⟨tr₁, out₁, w₁, hlogin, hcheck⟩ := Program.exec_any hcheck
  obtain ⟨hworked, hcheck⟩ := (Bool.and_eq_true _ _).mp hcheck
  obtain ⟨tr₂, out₂, w₂, hlogout, hworked'⟩ := Program.exec_any hcheck
  have hsession : Session World.step AuthOperation.program (fun _ _ => True) w₀
      ([⟨w₀, .loginWithGoogle, tr₁, out₁⟩] ++ [⟨w₁, .logOut, tr₂, out₂⟩]) w₂ :=
    .snoc (.single hlogin trivial) hlogout trivial
  have hnone : ∀ {P : Call → Prop} {tr : List AppEvent},
      decide (¬ Raised (fun _ => True) tr) = true → ¬ Raised P tr := by
    rintro P tr h ⟨c, e, hmem, -⟩
    exact of_decide_eq_true h ⟨c, e, hmem, trivial⟩
  refine ⟨w₀, _, w₂, hsession, rfl, (agreement_iff_of_session hcreate hsession).mpr ?_⟩
  refine List.forall_mem_append.mpr ⟨?_, ?_⟩ <;> refine List.forall_mem_singleton.mpr ?_
  · refine ⟨fun _ => of_decide_eq_true hnobody, fun user _ hfailed => ?_⟩
    exact absurd hfailed.1 (hnone hworked)
  · exact fun hraised => absurd hraised (hnone hworked')

/-- A Google sign-out that fails leaves the app logged in without a user. -/
theorem not_agreement_of_failed_googleSignOut :
    ¬ ∀ w w₀ tr out past w', Runs World.step w (AuthStateNotifier.create ()) tr out w₀ →
      Session World.step AuthOperation.program (fun _ _ => True) w₀ past w' → Agreement w' := by
  intro hall
  have hexec : ((AuthStateNotifier.create ()).exec World.step World.working 0 World.initial).any
      (fun r => (AuthOperation.loginWithGoogle.program.exec World.step World.working 0 r.2.2).any
        fun r' => (AuthOperation.logOut.program.exec World.step (World.failingAt 3) 0 r'.2.2).any
          fun r'' => isLoggedIn r''.2.2 && r''.2.2.currentUser = none) = true := by decide +kernel
  obtain ⟨tr₀, out₀, w₀, hcreate, hcheck⟩ := Program.exec_any hexec
  obtain ⟨tr₁, out₁, w₁, hlogin, hcheck⟩ := Program.exec_any hcheck
  obtain ⟨tr₂, out₂, w₂, hlogout, hcheck⟩ := Program.exec_any hcheck
  obtain ⟨hlogged, hnone⟩ := (Bool.and_eq_true _ _).mp hcheck
  have hsession : Session World.step AuthOperation.program (fun _ _ => True) w₀
      ([⟨w₀, .loginWithGoogle, tr₁, out₁⟩] ++ [⟨w₁, .logOut, tr₂, out₂⟩]) w₂ :=
    .snoc (.single hlogin trivial) hlogout trivial
  have hagree := (hall _ _ _ _ _ _ hcreate hsession).loggedIn.mp hlogged
  rw [of_decide_eq_true hnone] at hagree
  cases hagree

end TekkGram
