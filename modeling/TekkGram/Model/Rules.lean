import TekkGram.Model.World

/-!
# One rule per call

The weakest precondition of each call of the app: the postcondition must hold after
every failure the call can have, in the unchanged world, and after every answer
the world can give. Bodies are verified with these rules and never by unfolding
the environment.
-/

namespace TekkGram

open Interaction Async

/-- A call splits into its failures, without effect, and its answers. -/
theorem wp_step {σ : Type} {c : Call} {s : σ} {w : World}
    {Q : List AppEvent → Except Exc (Ans c) → σ → World → Prop} :
    (await c : Action σ (Ans c)).wp World.step Q s w ↔
      (∀ e, w.fails c e = true → Q [⟨c, .error e⟩] (.error e) s w) ∧
      ∀ a w', w.perform c a = some w' → Q [⟨c, .ok a⟩] (.ok a) s w' := by
  rw [wp_call]
  constructor
  · intro h
    exact ⟨fun e he => h (.error e) w (by simp only [World.step, he, ite_true]),
      fun a w' ha => h (.ok a) w' ha⟩
  · rintro ⟨herror, hok⟩ r w' hstep
    cases r with
    | error e =>
      simp only [World.step] at hstep
      split at hstep
      · rename_i he
        cases hstep
        exact herror e he
      · cases hstep
    | ok a => exact hok a w' hstep

section Failures

variable {w : World} {c : Call}

/-- Most calls fail only for reasons outside the modelled state. -/
theorem forall_fails_iff {P : Exc → Prop} (h : ∀ e, w.fails c e = true ↔ e = .unavailable) :
    (∀ e, w.fails c e = true → P e) ↔ P .unavailable := by
  simp only [h, forall_eq]

/-- Calls on the device's own memory do not fail. -/
theorem forall_not_fails_iff {P : Exc → Prop} (h : ∀ e, w.fails c e = false) :
    (∀ e, w.fails c e = true → P e) ↔ True := by
  simp only [h, Bool.false_eq_true, false_imp_iff, implies_true]

end Failures

section Rules

-- What a call returns and how it fails is read off the environment in this section only.
attribute [local simp] World.perform World.fails Call.fallible

variable {σ : Type} {s : σ} {w : World}

theorem wp_setLoading {n : Notifier} {v : Bool}
    {Q : List AppEvent → Except Exc Unit → σ → World → Prop} :
    (await (.setLoading n v) : Action σ Unit).wp World.step Q s w ↔
      Q [⟨.setLoading n v, .ok ()⟩] (.ok ()) s
        (w.setLoading n v) := by
  rw [wp_step, forall_not_fails_iff (fun e => by cases e <;> rfl)]
  simp [Ans, Unique.forall_iff]

/-- The frame of an operation: what its body raises becomes `false`, and its flag is turned off. -/
theorem wp_tryFinally_tryCatch {m : Action σ Bool} {n : Notifier}
    {Q : List AppEvent → Except Exc Bool → σ → World → Prop} :
    (tryFinally (tryCatch m fun _ => pure false) (await (.setLoading n false))).wp
        World.step Q s w ↔
      m.wp World.step (fun tr out s' w' =>
        Ends (fun b => Q (tr ++ [⟨.setLoading n false, .ok ()⟩]) (.ok b) s' (w'.setLoading n false))
          (fun _ => Q (tr ++ [⟨.setLoading n false, .ok ()⟩]) (.ok false) s'
            (w'.setLoading n false)) out) s w := by
  rw [wp_tryFinally, wp_tryCatch]
  refine forall₂_congr fun tr out => forall₂_congr fun s' w' => imp_congr_right fun _ => ?_
  cases out with
  | ok b =>
    simp only [ends_ok]
    rw [wp_setLoading, ends_ok]
  | error e =>
    simp only [ends_error]
    rw [wp_pure, wp_setLoading, ends_ok, List.append_nil]

theorem wp_authState {Q : List AppEvent → Except Exc AuthState → σ → World → Prop} :
    (await .authState : Action σ AuthState).wp World.step Q s w ↔
      Q [⟨.authState, .ok w.authState⟩] (.ok w.authState) s w := by
  rw [wp_step, forall_not_fails_iff (fun e => by cases e <;> rfl)]
  simp

theorem wp_setAuthState {state : AuthState}
    {Q : List AppEvent → Except Exc Unit → σ → World → Prop} :
    (await (.setAuthState state) : Action σ Unit).wp World.step Q s w ↔
      Q [⟨.setAuthState state, .ok ()⟩] (.ok ()) s (w.setAuthState state) := by
  rw [wp_step, forall_not_fails_iff (fun e => by cases e <;> rfl)]
  simp [Ans, Unique.forall_iff]

theorem wp_currentUser {Q : List AppEvent → Except Exc (Option FirebaseUser) → σ → World → Prop} :
    (await .currentUser : Action σ (Option FirebaseUser)).wp World.step Q s w ↔
      Q [⟨.currentUser, .ok w.currentUser⟩] (.ok w.currentUser) s w := by
  rw [wp_step, forall_not_fails_iff (fun e => by cases e <;> rfl)]
  simp

theorem wp_now {Q : List AppEvent → Except Exc DateTime → σ → World → Prop} :
    (await .now : Action σ DateTime).wp World.step Q s w ↔
      ∀ t, Q [⟨.now, .ok t⟩] (.ok t) s w := by
  rw [wp_step, forall_not_fails_iff (fun e => by cases e <;> rfl)]
  simp

/-- A generated name was never returned before. -/
theorem wp_uuidV4 {Q : List AppEvent → Except Exc String → σ → World → Prop} :
    (await .uuidV4 : Action σ String).wp World.step Q s w ↔
      ∀ name, name ∉ w.uuids →
        Q [⟨.uuidV4, .ok name⟩] (.ok name) s (w.draw name) := by
  rw [wp_step, forall_not_fails_iff (fun e => by cases e <;> rfl)]
  simp

theorem wp_readAsBytesSync {file : File}
    {Q : List AppEvent → Except Exc Uint8List → σ → World → Prop} :
    (await (.readAsBytesSync file) : Action σ Uint8List).wp World.step Q s w ↔
      Q [⟨.readAsBytesSync file, .error .unavailable⟩] (.error .unavailable) s w ∧
      ∀ bytes : Uint8List, bytes.source = file →
        Q [⟨.readAsBytesSync file, .ok bytes⟩] (.ok bytes) s w := by
  rw [wp_step, forall_fails_iff (fun e => by cases e <;> simp)]
  simp

theorem wp_decodeImage {bytes : Uint8List}
    {Q : List AppEvent → Except Exc (Option Image) → σ → World → Prop} :
    (await (.decodeImage bytes) : Action σ (Option Image)).wp World.step Q s w ↔
      Q [⟨.decodeImage bytes, .error .unavailable⟩] (.error .unavailable) s w ∧
      Q [⟨.decodeImage bytes, .ok none⟩] (.ok none) s w ∧
      ∀ image : Image, image.source = bytes.source →
        Q [⟨.decodeImage bytes, .ok (some image)⟩] (.ok (some image)) s w := by
  rw [wp_step, forall_fails_iff (fun e => by cases e <;> simp)]
  simp [Option.forall]

theorem wp_copyResize {image : Image} {width : Nat}
    {Q : List AppEvent → Except Exc Image → σ → World → Prop} :
    (await (.copyResize image width) : Action σ Image).wp World.step Q s w ↔
      Q [⟨.copyResize image width, .error .unavailable⟩] (.error .unavailable) s w ∧
      ∀ resized : Image, resized.source = image.source → resized.width = width →
        Q [⟨.copyResize image width, .ok resized⟩] (.ok resized) s w := by
  rw [wp_step, forall_fails_iff (fun e => by cases e <;> simp)]
  simp

theorem wp_encodeJpg {image : Image}
    {Q : List AppEvent → Except Exc Uint8List → σ → World → Prop} :
    (await (.encodeJpg image) : Action σ Uint8List).wp World.step Q s w ↔
      Q [⟨.encodeJpg image, .error .unavailable⟩] (.error .unavailable) s w ∧
      Q [⟨.encodeJpg image, .ok ⟨image.source, image.width, image.height⟩⟩]
        (.ok ⟨image.source, image.width, image.height⟩) s w := by
  rw [wp_step, forall_fails_iff (fun e => by cases e <;> simp)]
  simp

theorem wp_thumbnailData {video : File} {maxHeight quality : Nat}
    {Q : List AppEvent → Except Exc (Option Uint8List) → σ → World → Prop} :
    (await (.thumbnailData video maxHeight quality) : Action σ (Option Uint8List)).wp World.step
        Q s w ↔
      Q [⟨.thumbnailData video maxHeight quality, .error .unavailable⟩] (.error .unavailable) s w ∧
      Q [⟨.thumbnailData video maxHeight quality, .ok none⟩] (.ok none) s w ∧
      ∀ bytes : Uint8List, bytes.source = video →
        Q [⟨.thumbnailData video maxHeight quality, .ok (some bytes)⟩] (.ok (some bytes)) s w := by
  rw [wp_step, forall_fails_iff (fun e => by cases e <;> simp)]
  simp [Option.forall]

theorem wp_getAspectRatio {bytes : Uint8List}
    {Q : List AppEvent → Except Exc ℚ → σ → World → Prop} :
    (await (.getAspectRatio bytes) : Action σ ℚ).wp World.step Q s w ↔
      Q [⟨.getAspectRatio bytes, .error .unavailable⟩] (.error .unavailable) s w ∧
      Q [⟨.getAspectRatio bytes, .ok bytes.aspectRatio⟩] (.ok bytes.aspectRatio) s w := by
  rw [wp_step, forall_fails_iff (fun e => by cases e <;> simp)]
  simp

theorem wp_putData {ref : Reference} {bytes : Uint8List}
    {Q : List AppEvent → Except Exc TaskSnapshot → σ → World → Prop} :
    (await (.putData ref bytes) : Action σ TaskSnapshot).wp World.step Q s w ↔
      Q [⟨.putData ref bytes, .error .unavailable⟩] (.error .unavailable) s w ∧
      Q [⟨.putData ref bytes, .ok ⟨ref⟩⟩] (.ok ⟨ref⟩) s
        (w.put ref (.data bytes)) := by
  rw [wp_step, forall_fails_iff (fun e => by cases e <;> simp)]
  refine and_congr_right fun _ => ⟨fun h => h ⟨ref⟩ _ (by simp), ?_⟩
  rintro h ⟨ref'⟩ w' hw
  simp only [World.perform, Option.ite_none_right_eq_some, Option.some.injEq] at hw
  obtain ⟨rfl, rfl⟩ := hw
  exact h

theorem wp_putFile {ref : Reference} {file : File}
    {Q : List AppEvent → Except Exc TaskSnapshot → σ → World → Prop} :
    (await (.putFile ref file) : Action σ TaskSnapshot).wp World.step Q s w ↔
      Q [⟨.putFile ref file, .error .unavailable⟩] (.error .unavailable) s w ∧
      Q [⟨.putFile ref file, .ok ⟨ref⟩⟩] (.ok ⟨ref⟩) s
        (w.put ref (.file file)) := by
  rw [wp_step, forall_fails_iff (fun e => by cases e <;> simp)]
  refine and_congr_right fun _ => ⟨fun h => h ⟨ref⟩ _ (by simp), ?_⟩
  rintro h ⟨ref'⟩ w' hw
  simp only [World.perform, Option.ite_none_right_eq_some, Option.some.injEq] at hw
  obtain ⟨rfl, rfl⟩ := hw
  exact h

/-- A URL is handed out for an existing object only. -/
theorem wp_getDownloadURL {ref : Reference}
    {Q : List AppEvent → Except Exc String → σ → World → Prop} :
    (await (.getDownloadURL ref) : Action σ String).wp World.step Q s w ↔
      Q [⟨.getDownloadURL ref, .error .unavailable⟩] (.error .unavailable) s w ∧
      (w.storage ref = none →
        Q [⟨.getDownloadURL ref, .error .objectNotFound⟩] (.error .objectNotFound) s w) ∧
      ((w.storage ref).isSome → ∀ url, Q [⟨.getDownloadURL ref, .ok url⟩] (.ok url) s
        (w.handOut url ref)) := by
  rw [wp_step]
  constructor
  · rintro ⟨herror, hok⟩
    exact ⟨herror _ rfl, fun h => herror _ (by simp [h]),
      fun h url => hok url _ (by simp [h])⟩
  · rintro ⟨hunavailable, hmissing, hok⟩
    constructor
    · intro e he
      cases e <;> simp only [World.fails, Bool.false_eq_true, Option.isNone_iff_eq_none] at he
      · exact hunavailable
      · exact hmissing he
    · intro url w' hw
      simp only [World.perform, Option.ite_none_right_eq_some, Option.some.injEq] at hw
      obtain ⟨h, rfl⟩ := hw
      exact hok h url

/-- Deleting an object that does not exist fails. -/
theorem wp_deleteObject {ref : Reference}
    {Q : List AppEvent → Except Exc Unit → σ → World → Prop} :
    (await (.deleteObject ref) : Action σ Unit).wp World.step Q s w ↔
      Q [⟨.deleteObject ref, .error .unavailable⟩] (.error .unavailable) s w ∧
      (w.storage ref = none →
        Q [⟨.deleteObject ref, .error .objectNotFound⟩] (.error .objectNotFound) s w) ∧
      ((w.storage ref).isSome → Q [⟨.deleteObject ref, .ok ()⟩] (.ok ()) s
        (w.remove ref)) := by
  rw [wp_step]
  constructor
  · rintro ⟨herror, hok⟩
    exact ⟨herror _ rfl, fun h => herror _ (by simp [h]),
      fun h => hok () _ (by simp [h])⟩
  · rintro ⟨hunavailable, hmissing, hok⟩
    constructor
    · intro e he
      cases e <;> simp only [World.fails, Bool.false_eq_true, Option.isNone_iff_eq_none] at he
      · exact hunavailable
      · exact hmissing he
    · intro _ w' hw
      simp only [World.perform, Option.ite_none_right_eq_some, Option.some.injEq] at hw
      obtain ⟨h, rfl⟩ := hw
      exact hok h

theorem wp_get_query {q : Query}
    {Q : List AppEvent → Except Exc (List DocSnapshot) → σ → World → Prop} :
    (await (.get q) : Action σ (List DocSnapshot)).wp World.step Q s w ↔
      Q [⟨.get q, .error .unavailable⟩] (.error .unavailable) s w ∧
      Q [⟨.get q, .ok (q.eval (w.firestore q.collection))⟩]
        (.ok (q.eval (w.firestore q.collection))) s w := by
  rw [wp_step, forall_fails_iff (fun e => by cases e <;> simp)]
  simp

/-- A new document gets an id that its collection does not hold yet. -/
theorem wp_add {c : CollectionPath} {payload : Doc}
    {Q : List AppEvent → Except Exc Added → σ → World → Prop} :
    (await (.add c payload) : Action σ Added).wp World.step Q s w ↔
      Q [⟨.add c payload, .error .unavailable⟩] (.error .unavailable) s w ∧
      ∀ id t, id ∉ w.firestore c → Q [⟨.add c payload, .ok ⟨id, t⟩⟩] (.ok ⟨id, t⟩) s
        (w.setDoc c id (payload.resolve t)) := by
  rw [wp_step, forall_fails_iff (fun e => by cases e <;> simp)]
  refine and_congr_right fun _ => ⟨fun h id t hid => h ⟨id, t⟩ _ (by simp [hid]), ?_⟩
  rintro h ⟨id, t⟩ w' hw
  simp only [World.perform, Option.ite_none_left_eq_some, Option.some.injEq] at hw
  obtain ⟨hid, rfl⟩ := hw
  exact h id t hid

/-- Updating a document that does not exist fails. -/
theorem wp_update {c : CollectionPath} {id : String} {fields : Doc}
    {Q : List AppEvent → Except Exc Unit → σ → World → Prop} :
    (await (.update c id fields) : Action σ Unit).wp World.step Q s w ↔
      Q [⟨.update c id fields, .error .unavailable⟩] (.error .unavailable) s w ∧
      ((w.firestore c)[id]? = none →
        Q [⟨.update c id fields, .error .documentNotFound⟩] (.error .documentNotFound) s w) ∧
      ∀ d, (w.firestore c)[id]? = some d → Q [⟨.update c id fields, .ok ()⟩] (.ok ()) s
        (w.setDoc c id (d.merge fields)) := by
  rw [wp_step]
  constructor
  · rintro ⟨herror, hok⟩
    exact ⟨herror _ rfl, fun h => herror _ (by simp [h]),
      fun d h => hok () _ (by simp only [World.perform, h])⟩
  · rintro ⟨hunavailable, hmissing, hok⟩
    constructor
    · intro e he
      cases e <;> simp only [World.fails, Bool.false_eq_true, Option.isNone_iff_eq_none] at he
      · exact hunavailable
      · exact hmissing he
    · intro _ w' hw
      simp only [World.perform] at hw
      split at hw
      · cases hw
      · rename_i d hd
        cases hw
        exact hok d hd

theorem wp_delete {c : CollectionPath} {id : String}
    {Q : List AppEvent → Except Exc Unit → σ → World → Prop} :
    (await (.delete c id) : Action σ Unit).wp World.step Q s w ↔
      Q [⟨.delete c id, .error .unavailable⟩] (.error .unavailable) s w ∧
      Q [⟨.delete c id, .ok ()⟩] (.ok ()) s
        (w.eraseDoc c id) := by
  rw [wp_step, forall_fails_iff (fun e => by cases e <;> simp)]
  simp [Ans, Unique.forall_iff]

theorem wp_commit {writes : List Write}
    {Q : List AppEvent → Except Exc Timestamp → σ → World → Prop} :
    (await (.commit writes) : Action σ Timestamp).wp World.step Q s w ↔
      Q [⟨.commit writes, .error .unavailable⟩] (.error .unavailable) s w ∧
      ∀ t, Q [⟨.commit writes, .ok t⟩] (.ok t) s
        (writes.foldl (fun w => w.write t) w) := by
  rw [wp_step, forall_fails_iff (fun e => by cases e <;> simp)]
  simp

theorem wp_googleSignIn
    {Q : List AppEvent → Except Exc (Option GoogleSignInAccount) → σ → World → Prop} :
    (await .googleSignIn : Action σ (Option GoogleSignInAccount)).wp World.step Q s w ↔
      Q [⟨.googleSignIn, .error .unavailable⟩] (.error .unavailable) s w ∧
      ∀ account, Q [⟨.googleSignIn, .ok account⟩] (.ok account) s w := by
  rw [wp_step, forall_fails_iff (fun e => by cases e <;> simp)]
  simp

theorem wp_authentication {account : GoogleSignInAccount}
    {Q : List AppEvent → Except Exc GoogleSignInAuthentication → σ → World → Prop} :
    (await (.authentication account) : Action σ GoogleSignInAuthentication).wp World.step Q s w ↔
      Q [⟨.authentication account, .error .unavailable⟩] (.error .unavailable) s w ∧
      ∀ tokens, Q [⟨.authentication account, .ok tokens⟩] (.ok tokens) s w := by
  rw [wp_step, forall_fails_iff (fun e => by cases e <;> simp)]
  simp

theorem wp_signInWithCredential {credential : GoogleSignInAuthentication}
    {Q : List AppEvent → Except Exc FirebaseUser → σ → World → Prop} :
    (await (.signInWithCredential credential) : Action σ FirebaseUser).wp World.step Q s w ↔
      Q [⟨.signInWithCredential credential, .error .unavailable⟩] (.error .unavailable) s w ∧
      ∀ user, Q [⟨.signInWithCredential credential, .ok user⟩] (.ok user) s
        (w.setCurrentUser (some user)) := by
  rw [wp_step, forall_fails_iff (fun e => by cases e <;> simp)]
  simp

theorem wp_firebaseSignOut {Q : List AppEvent → Except Exc Unit → σ → World → Prop} :
    (await .firebaseSignOut : Action σ Unit).wp World.step Q s w ↔
      Q [⟨.firebaseSignOut, .error .unavailable⟩] (.error .unavailable) s w ∧
      Q [⟨.firebaseSignOut, .ok ()⟩] (.ok ()) s (w.setCurrentUser none) := by
  rw [wp_step, forall_fails_iff (fun e => by cases e <;> simp)]
  simp [Ans, Unique.forall_iff]

theorem wp_googleSignOut {Q : List AppEvent → Except Exc Unit → σ → World → Prop} :
    (await .googleSignOut : Action σ Unit).wp World.step Q s w ↔
      Q [⟨.googleSignOut, .error .unavailable⟩] (.error .unavailable) s w ∧
      Q [⟨.googleSignOut, .ok ()⟩] (.ok ()) s w := by
  rw [wp_step, forall_fails_iff (fun e => by cases e <;> simp)]
  simp [Ans, Unique.forall_iff]

end Rules

section Expressions

variable {σ α : Type} {s : σ} {w : World}
  {Q : List AppEvent → Except Exc α → σ → World → Prop}

/-- The null check `!`. -/
def nullCheck (value : Option α) : Action σ α :=
  match value with
  | none => throw .nullCheck
  | some a => pure a

/-- `first` of a list. -/
def first (items : List α) : Action σ α :=
  match items with
  | [] => throw .noElement
  | a :: _ => pure a

theorem wp_nullCheck {value : Option α} :
    (nullCheck value : Action σ α).wp World.step Q s w ↔
      (value = none → Q [] (.error .nullCheck) s w) ∧
      ∀ a, value = some a → Q [] (.ok a) s w := by
  cases value with
  | none => simp [nullCheck]
  | some a => simp [nullCheck]

theorem wp_first {items : List α} :
    (first items : Action σ α).wp World.step Q s w ↔
      (items = [] → Q [] (.error .noElement) s w) ∧
      ∀ a, items.head? = some a → Q [] (.ok a) s w := by
  cases items with
  | nil => simp [first]
  | cons a rest => simp [first]

end Expressions

end TekkGram
