import TekkGram.Interaction.Trace
import TekkGram.Model.Rules

/-!
# Authenticator, UserInfoStorage and AuthStateNotifier

Signing in and out changes Firebase's current user, and the notifier's state follows after
further calls. Signing in swallows every failure; signing out and the query for the profile
are awaited outside any `try`.
-/

namespace TekkGram

open Interaction Async

namespace Authenticator

variable {σ : Type}

/-- The getter `userId`. -/
def userId : Action σ (Option UserId) := do
  let currentUser : Option FirebaseUser ← await .currentUser
  return currentUser.map (·.uid)

/-- The getter `isAlreadyLoggedIn`. -/
def isAlreadyLoggedIn : Action σ Bool := do
  let userId ← userId
  return userId.isSome

/-- The getter `displayName`. -/
def displayName : Action σ String := do
  let currentUser : Option FirebaseUser ← await .currentUser
  return (currentUser.bind (·.displayName)).getD ""

/-- The getter `email`. -/
def email : Action σ (Option String) := do
  let currentUser : Option FirebaseUser ← await .currentUser
  return currentUser.bind (·.email)

/-- The getter `phone`. -/
def phone : Action σ (Option String) := do
  let currentUser : Option FirebaseUser ← await .currentUser
  return some ((currentUser.bind (·.phoneNumber)).getD "")

/-- The getter `imageUrl`. -/
def imageUrl : Action σ (Option String) := do
  let currentUser : Option FirebaseUser ← await .currentUser
  return some ((currentUser.bind (·.photoURL)).getD "")

/-- `logOut`. -/
def logOut : Action σ Unit := do
  await .firebaseSignOut
  await .googleSignOut

/-- The `try` block of `loginWithGoogle`. -/
def signIn : Action σ AuthResult := do
  let signInAccount : Option GoogleSignInAccount ← await .googleSignIn
  match signInAccount with
  | none => return .aborted
  | some signInAccount => do
    let googleAuth : GoogleSignInAuthentication ← await (.authentication signInAccount)
    let _ ← await (.signInWithCredential googleAuth)
    return .success

/-- `loginWithGoogle`. -/
def loginWithGoogle : Action σ AuthResult := tryCatch signIn fun _ => return .failure

end Authenticator

namespace UserInfoStorage

variable {σ : Type}

/-- The query for the profile of a user. -/
def profileOf (userId : UserId) : Query where
  collection := .users
  filters := [(FirebaseFieldName.userId, .string userId)]
  limit := some 1

/-- The fields that an update writes to a profile. -/
def updatedFields (displayName : String) (email phone imageUrl : Option String) : Doc :=
  [(FirebaseFieldName.displayName, .string displayName),
   (FirebaseFieldName.email, .string (email.getD "")),
   (FirebaseFieldName.phone, .string (phone.getD "")),
   (FirebaseFieldName.imageUrl, .string (imageUrl.getD ""))]

/-- The `try` block of `saveUserInfo`. -/
def updateOrAdd (userId : UserId) (displayName : String) (email phone imageUrl : Option String) :
    Action σ Bool := do
  let userInfo : List DocSnapshot ← await (.get (profileOf userId))
  match userInfo with
  | doc :: _ => do
    await (.update .users doc.id (updatedFields displayName email phone imageUrl))
    return true
  | [] => do
    let _ ← await (.add .users (userInfoPayload userId (some displayName) email phone imageUrl))
    return true

/-- `saveUserInfo`. -/
def saveUserInfo (userId : UserId) (displayName : String) (email phone imageUrl : Option String) :
    Action σ Bool :=
  tryCatch (updateOrAdd userId displayName email phone imageUrl) fun _ => return false

end UserInfoStorage

namespace AuthStateNotifier

/-- `state = state.copiedWithIsLoading(isLoading)`. -/
def setIsLoading (isLoading : Bool) : Action Unit Unit := do
  let state : AuthState ← await .authState
  await (.setAuthState (state.copiedWithIsLoading isLoading))

/-- The constructor. -/
def create : Action Unit Unit := do
  await (.setAuthState .unknown)
  let isAlreadyLoggedIn ← Authenticator.isAlreadyLoggedIn
  if isAlreadyLoggedIn then
    let userId ← Authenticator.userId
    await (.setAuthState ⟨some .success, false, userId⟩)
  else return ()

/-- `logOut`. -/
def logOut : Action Unit Unit := do
  setIsLoading true
  Authenticator.logOut
  await (.setAuthState .unknown)

/-- `saveUserInfo`, with the fields of the current user. -/
def saveUserInfo (userId : UserId) : Action Unit Unit := do
  let displayName ← Authenticator.displayName
  let email ← Authenticator.email
  let phone ← Authenticator.phone
  let imageUrl ← Authenticator.imageUrl
  let _ ← UserInfoStorage.saveUserInfo userId displayName email phone imageUrl

/-- The query for the profile of a signed-in user, and its first creation. -/
def createProfile (userId : UserId) : Action Unit Unit := do
  let userInfo : List DocSnapshot ← await (.get (UserInfoStorage.profileOf userId))
  if userInfo = [] then saveUserInfo userId else return ()

/-- The profile is looked up only after a sign-in. -/
def createProfileAfter (result : AuthResult) (userId : Option UserId) : Action Unit Unit :=
  match result, userId with
  | .success, some userId => createProfile userId
  | _, _ => return ()

/-- `loginWithGoogle`. -/
def loginWithGoogle : Action Unit Unit := do
  setIsLoading true
  let result ← Authenticator.loginWithGoogle
  let userId ← Authenticator.userId
  createProfileAfter result userId
  await (.setAuthState ⟨some result, false, userId⟩)

/-- `updateUserInfo`. -/
def updateUserInfo (userId : UserId) (displayName : String) (phone imageUrl : Option String) :
    Action Unit Bool := do
  setIsLoading true
  let email ← Authenticator.email
  let result ← UserInfoStorage.saveUserInfo userId displayName email phone imageUrl
  setIsLoading false
  return result

end AuthStateNotifier

/-- The profile calls of `saveUserInfo`. -/
@[simp] def Call.Profile : Call → Prop
  | .get _ => True
  | .update _ _ _ => True
  | .add _ _ => True
  | .currentUser => True
  | _ => False

/-- A credential was accepted, and this user is signed in. -/
@[simp] def SignsIn (user : FirebaseUser) : (c : Call) → Ans c → Prop
  | .signInWithCredential _, signedIn => signedIn = user
  | _, _ => False

/-- Calls that read documents. -/
@[simp] def Call.Gets : Call → Prop
  | .get _ => True
  | _ => False

/-- A query returned. -/
@[simp] def Queried : (c : Call) → Ans c → Prop
  | .get _, _ => True
  | _, _ => False

/-- Calls that sign in. -/
@[simp] def Call.Google : Call → Prop
  | .googleSignIn => True
  | .authentication _ => True
  | .signInWithCredential _ => True
  | _ => False

/-- Calls that sign out. -/
@[simp] def Call.SignsOut : Call → Prop
  | .firebaseSignOut => True
  | .googleSignOut => True
  | _ => False

/-- The first query of a trace failed, so that no query of it returned. -/
def FirstQueryFailed (tr : List AppEvent) : Prop :=
  Raised Call.Gets tr ∧ ¬ Returned Queried tr

/-- The second world has the same session: the notifier's state and the current user. -/
structure World.SameSession (w w' : World) : Prop where
  authState : w'.authState = w.authState
  currentUser : w'.currentUser = w.currentUser

/-- The calls on profiles leave the session as it is. -/
theorem Call.Profile.sameSession {w w₁ w₂ : World} {c : Call} {r : Fallible Exc Ans c}
    (hc : c.Profile) (hstep : World.step w₁ c r = some w₂) (h : w.SameSession w₁) :
    w.SameSession w₂ := by
  cases r with
  | error e => exact World.step_error hstep ▸ h
  | ok a =>
    cases c with
    | get q =>
      simp only [World.step, World.perform] at hstep
      split at hstep <;> cases hstep
      exact h
    | currentUser =>
      simp only [World.step, World.perform] at hstep
      split at hstep <;> cases hstep
      exact h
    | update path id fields =>
      simp only [World.step, World.perform] at hstep
      split at hstep <;> cases hstep
      exact ⟨h.authState, h.currentUser⟩
    | add path payload =>
      simp only [World.step, World.perform] at hstep
      split at hstep <;> cases hstep
      exact ⟨h.authState, h.currentUser⟩
    | _ => exact absurd hc (by simp)

section Rules

variable {σ : Type} {s : σ} {w : World}

theorem wp_userId {Q : List AppEvent → Except Exc (Option UserId) → σ → World → Prop} :
    (Authenticator.userId : Action σ (Option UserId)).wp World.step Q s w ↔
      Q [⟨.currentUser, .ok w.currentUser⟩] (.ok (w.currentUser.map (·.uid))) s w := by
  rw [Authenticator.userId, wp_bind, wp_currentUser, ends_ok, wp_pure, List.append_nil]

theorem wp_setIsLoading {s : Unit} {isLoading : Bool}
    {Q : List AppEvent → Except Exc Unit → Unit → World → Prop} :
    (AuthStateNotifier.setIsLoading isLoading).wp World.step Q s w ↔
      Q [⟨.authState, .ok w.authState⟩,
          ⟨.setAuthState (w.authState.copiedWithIsLoading isLoading), .ok ()⟩] (.ok ()) s
        (w.setAuthState (w.authState.copiedWithIsLoading isLoading)) := by
  rw [AuthStateNotifier.setIsLoading, wp_bind, wp_authState, ends_ok, wp_setAuthState]
  rfl

end Rules

theorem Authenticator.loginWithGoogle_calls {σ : Type} :
    (Authenticator.loginWithGoogle : Action σ AuthResult).Calls Call.Google := by
  refine calls_tryCatch (calls_bind (calls_call trivial) fun account => ?_) fun _ => calls_pure
  cases account with
  | none => exact calls_pure
  | some account =>
    exact calls_bind (calls_call trivial) fun _ => calls_bind (calls_call trivial) fun _ =>
      calls_pure

/-- Signing in with Google never throws: it returns without a sign-in, or signs a user in. -/
theorem Authenticator.loginWithGoogle_spec {σ : Type} (s : σ) (w : World) :
    (Authenticator.loginWithGoogle : Action σ AuthResult).wp World.step
      (fun tr out s' w' => s' = s ∧ ¬ Raised Call.Gets tr ∧ ¬ Returned Queried tr ∧
        ((∃ result, out = .ok result ∧ result ≠ .success ∧ w' = w ∧
            ∀ user, ¬ Returned (SignsIn user) tr) ∨
          ∃ user, out = .ok .success ∧ w' = w.setCurrentUser (some user) ∧
            ∀ user', Returned (SignsIn user') tr ↔ user' = user)) s w := by
  have hfailure : AuthResult.failure ≠ .success := nofun
  unfold Authenticator.loginWithGoogle Authenticator.signIn
  rw [wp_tryCatch, wp_bind, wp_googleSignIn]
  constructor
  · rw [ends_error, ends_error, wp_pure]
    exact ⟨rfl, by simp, by simp, .inl ⟨_, rfl, hfailure, rfl, by simp⟩⟩
  · intro account
    rw [ends_ok]
    cases account with
    | none =>
      rw [wp_pure, ends_ok]
      exact ⟨rfl, by simp, by simp, .inl ⟨_, rfl, nofun, rfl, by simp⟩⟩
    | some account =>
      rw [wp_bind, wp_authentication]
      constructor
      · rw [ends_error, ends_error, wp_pure]
        exact ⟨rfl, by simp, by simp, .inl ⟨_, rfl, hfailure, rfl, by simp⟩⟩
      · intro tokens
        rw [ends_ok, wp_bind, wp_signInWithCredential]
        constructor
        · rw [ends_error, ends_error, wp_pure]
          exact ⟨rfl, by simp, by simp, .inl ⟨_, rfl, hfailure, rfl, by simp⟩⟩
        · intro user
          rw [ends_ok, wp_pure, ends_ok]
          exact ⟨rfl, by simp, by simp, .inr ⟨user, rfl, rfl, by simp [eq_comm]⟩⟩

namespace UserInfoStorage

variable {σ : Type}

theorem saveUserInfo_calls (userId : UserId) (displayName : String)
    (email phone imageUrl : Option String) :
    (saveUserInfo userId displayName email phone imageUrl : Action σ Bool).Calls
      Call.Profile := by
  refine calls_tryCatch (calls_bind (calls_call trivial) fun userInfo => ?_) fun _ => calls_pure
  cases userInfo with
  | nil => exact calls_bind (calls_call trivial) fun _ => calls_pure
  | cons doc docs => exact calls_bind (calls_call trivial) fun _ => calls_pure

/-- Saving a profile never throws and leaves the session as it is. -/
theorem saveUserInfo_spec (userId : UserId) (displayName : String)
    (email phone imageUrl : Option String) (s : σ) (w : World) :
    (saveUserInfo userId displayName email phone imageUrl : Action σ Bool).wp World.step
      (fun _ out _ w' => (∃ saved, out = .ok saved) ∧ w.SameSession w') s w := by
  refine wp_and ?_ (wp_invariant (saveUserInfo_calls userId displayName email phone imageUrl)
    (fun _ _ _ _ hc hstep h => hc.sameSession hstep h) s ⟨rfl, rfl⟩)
  refine wp_tryCatch.mpr fun tr out s' w' _ => ?_
  cases out with
  | ok saved => exact ⟨saved, rfl⟩
  | error e =>
    rw [ends_error, wp_pure]
    exact ⟨false, rfl⟩

end UserInfoStorage

namespace AuthStateNotifier

/-- Without a successful sign-in no profile is looked up. -/
theorem createProfileAfter_of_ne {result : AuthResult} (h : result ≠ .success)
    (userId : Option UserId) : createProfileAfter result userId = pure () := by
  cases result with
  | success => exact absurd rfl h
  | aborted => rfl
  | failure => rfl

theorem saveUserInfo_calls (userId : UserId) : (saveUserInfo userId).Calls Call.Profile := by
  refine calls_bind (calls_bind (calls_call trivial) fun _ => calls_pure) fun displayName => ?_
  refine calls_bind (calls_bind (calls_call trivial) fun _ => calls_pure) fun email => ?_
  refine calls_bind (calls_bind (calls_call trivial) fun _ => calls_pure) fun phone => ?_
  refine calls_bind (calls_bind (calls_call trivial) fun _ => calls_pure) fun imageUrl => ?_
  exact calls_bind (UserInfoStorage.saveUserInfo_calls _ _ _ _ _) fun _ => calls_pure

/-- Saving the profile of the current user never throws and leaves the session as it is. -/
theorem saveUserInfo_spec (userId : UserId) (s : Unit) (w : World) :
    (saveUserInfo userId).wp World.step (fun tr out _ w' =>
      out = .ok () ∧ w.SameSession w' ∧ ∀ e ∈ tr, e.call.Profile) s w := by
  refine wp_and ?_ (wp_and (wp_invariant (saveUserInfo_calls userId)
    (fun _ _ _ _ hc hstep h => hc.sameSession hstep h) s ⟨rfl, rfl⟩)
    (wp_calls (saveUserInfo_calls userId) s w))
  unfold saveUserInfo Authenticator.displayName Authenticator.email Authenticator.phone
    Authenticator.imageUrl
  rw [wp_bind, wp_bind, wp_currentUser, ends_ok, wp_pure, ends_ok]
  rw [wp_bind, wp_bind, wp_currentUser, ends_ok, wp_pure, ends_ok]
  rw [wp_bind, wp_bind, wp_currentUser, ends_ok, wp_pure, ends_ok]
  rw [wp_bind, wp_bind, wp_currentUser, ends_ok, wp_pure, ends_ok]
  refine wp_bind.mpr (wp_mono (UserInfoStorage.saveUserInfo_spec _ _ _ _ _ s w) ?_)
  rintro tr out s' w' ⟨⟨saved, rfl⟩, -⟩
  rw [ends_ok, wp_pure]

/-- Creating a profile leaves the session as it is, and throws exactly when the first query
fails. -/
theorem createProfile_spec (userId : UserId) (s : Unit) (w : World) :
    (createProfile userId).wp World.step (fun tr out _ w' =>
      w.SameSession w' ∧ (∀ user, ¬ Returned (SignsIn user) tr) ∧
        ((out = .error .unavailable ∧ FirstQueryFailed tr) ∨
          (out = .ok () ∧ Returned Queried tr))) s w := by
  rw [createProfile, wp_bind, wp_get_query]
  constructor
  · rw [ends_error]
    exact ⟨⟨rfl, rfl⟩, by simp, .inl ⟨rfl, by simp [FirstQueryFailed]⟩⟩
  · rw [ends_ok]
    generalize hdocs : (UserInfoStorage.profileOf userId).eval _ = docs
    by_cases hnew : docs = []
    · rw [if_pos hnew]
      refine wp_mono (saveUserInfo_spec userId s w) ?_
      rintro tr out s' w' ⟨rfl, hsame, hcalls⟩
      have hsigns : ∀ user, ¬ Returned (SignsIn user) tr := fun user =>
        not_returned_of_calls hcalls fun c a hc hsigned => by cases c <;> simp at hc hsigned
      exact ⟨hsame, by simpa using hsigns, .inr ⟨rfl, by simp⟩⟩
    · rw [if_neg hnew, wp_pure]
      exact ⟨⟨rfl, rfl⟩, by simp, .inr ⟨rfl, by simp⟩⟩

/-- What a logout can do: fail before or after Firebase has signed out, or end with nobody
logged in. -/
theorem logOut_spec (s : Unit) (w : World) :
    logOut.wp World.step (fun tr _ _ w' =>
      (Raised Call.SignsOut tr ∧ ¬ Raised (· = .googleSignOut) tr ∧
        w'.authState = w.authState.copiedWithIsLoading true ∧ w'.currentUser = w.currentUser) ∨
      (Raised Call.SignsOut tr ∧ Raised (· = .googleSignOut) tr ∧
        w'.authState = w.authState.copiedWithIsLoading true ∧ w'.currentUser = none) ∨
      (¬ Raised Call.SignsOut tr ∧ ¬ Raised (· = .googleSignOut) tr ∧
        w'.authState = .unknown ∧ w'.currentUser = none)) s w := by
  unfold logOut Authenticator.logOut
  rw [wp_bind, wp_setIsLoading, ends_ok, wp_bind, wp_bind, wp_firebaseSignOut]
  constructor
  · rw [ends_error, ends_error]
    exact .inl ⟨by simp, by simp, rfl, rfl⟩
  · rw [ends_ok, wp_googleSignOut]
    constructor
    · rw [ends_error]
      exact .inr (.inl ⟨by simp, by simp, rfl, rfl⟩)
    · rw [ends_ok, wp_setAuthState]
      exact .inr (.inr ⟨by simp, by simp, rfl, rfl⟩)

/-- What a login can do: end without a sign-in, or sign a user in and then fail at its first
query or end with that user logged in. -/
theorem loginWithGoogle_spec (s : Unit) (w : World) :
    loginWithGoogle.wp World.step (fun tr _ _ w' =>
      (∃ result, result ≠ .success ∧ (∀ user, ¬ Returned (SignsIn user) tr) ∧
        ¬ FirstQueryFailed tr ∧ w'.currentUser = w.currentUser ∧
        w'.authState = ⟨some result, false, w.currentUser.map (·.uid)⟩) ∨
      ∃ user, (∀ user', Returned (SignsIn user') tr ↔ user' = user) ∧
        w'.currentUser = some user ∧
        ((FirstQueryFailed tr ∧ w'.authState = w.authState.copiedWithIsLoading true) ∨
          (¬ FirstQueryFailed tr ∧ w'.authState = ⟨some .success, false, some user.uid⟩))) s w := by
  unfold loginWithGoogle
  rw [wp_bind, wp_setIsLoading, ends_ok]
  refine wp_bind.mpr (wp_mono (Authenticator.loginWithGoogle_spec s _) ?_)
  rintro tr out s' w' ⟨-, hraised, hreturned, ⟨result, rfl, hresult, rfl, hnobody⟩ |
    ⟨user, rfl, rfl, huser⟩⟩
  · rw [ends_ok, wp_bind, wp_userId, ends_ok, wp_bind, createProfileAfter_of_ne hresult, wp_pure,
      ends_ok, wp_setAuthState]
    refine .inl ⟨result, hresult, by simpa using hnobody, ?_, rfl, rfl⟩
    simp [FirstQueryFailed, hraised, hreturned]
  · rw [ends_ok, wp_bind, wp_userId, ends_ok]
    refine wp_bind.mpr (wp_mono (createProfile_spec user.uid s' _) ?_)
    rintro tr' out s'' w' ⟨hsame, hnobody, ⟨rfl, hfailed⟩ | ⟨rfl, hqueried⟩⟩
    · rw [ends_error]
      refine .inr ⟨user, ?_, hsame.currentUser, .inl ⟨?_, hsame.authState⟩⟩
      · simp [huser, hnobody]
      · simpa [FirstQueryFailed, hraised, hreturned] using hfailed
    · rw [ends_ok, wp_setAuthState]
      refine .inr ⟨user, ?_, hsame.currentUser, .inr ⟨?_, rfl⟩⟩
      · simp [huser, hnobody]
      · simp [FirstQueryFailed, hqueried]

/-- An update of a profile always ends, with the session as it was and the flag off. -/
theorem updateUserInfo_spec (userId : UserId) (displayName : String)
    (phone imageUrl : Option String) (s : Unit) (w : World) :
    (updateUserInfo userId displayName phone imageUrl).wp World.step (fun _ _ _ w' =>
      w'.authState = w.authState.copiedWithIsLoading false ∧
        w'.currentUser = w.currentUser) s w := by
  unfold updateUserInfo Authenticator.email
  rw [wp_bind, wp_setIsLoading, ends_ok]
  rw [wp_bind, wp_bind, wp_currentUser, ends_ok, wp_pure, ends_ok]
  refine wp_bind.mpr (wp_mono (UserInfoStorage.saveUserInfo_spec _ _ _ _ _ s _) ?_)
  rintro tr out s' w' ⟨⟨saved, rfl⟩, hsame⟩
  rw [ends_ok, wp_bind, wp_setIsLoading, ends_ok, wp_pure]
  refine ⟨?_, hsame.currentUser⟩
  rw [World.setAuthState_authState, hsame.authState]
  rfl

/-- The constructor logs the current user in, if there is one. -/
theorem create_spec (s : Unit) (w : World) :
    create.wp World.step (fun _ _ _ w' => w'.currentUser = w.currentUser ∧
      w'.authState = match w.currentUser with
        | none => .unknown
        | some user => ⟨some .success, false, some user.uid⟩) s w := by
  unfold create Authenticator.isAlreadyLoggedIn
  rw [wp_bind, wp_setAuthState, ends_ok, wp_bind, wp_bind, wp_userId, ends_ok, wp_pure, ends_ok]
  cases huser : w.currentUser with
  | none =>
    simp [huser]
  | some user =>
    simp only [World.setAuthState_currentUser, huser, Option.map_some, Option.isSome_some, ite_true]
    rw [wp_bind, wp_userId, ends_ok, wp_setAuthState]
    simp [huser]

end AuthStateNotifier

end TekkGram
