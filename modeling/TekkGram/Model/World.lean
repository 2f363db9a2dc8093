import Mathlib.Logic.Function.Basic
import Mathlib.Tactic.Simps.Basic
import TekkGram.Interaction.Async
import TekkGram.Model.Query

/-!
# The world of the app and its calls

The world holds the shared backend (Firestore collections, stored objects, the
download URLs handed out so far) and the device's state (loading flags,
authentication state, Firebase's current user). Every await of the app, and every
read or write of a notifier's own state, is a call. The environment
accepts a returned answer when the backend can give it, and any failure of a
fallible call; a failing call has no effect.
-/

namespace TekkGram

open Interaction

/-- What a failing call or a failing expression raises. -/
inductive Exc where
  /-- A call fails for a reason outside the modelled state. -/
  | unavailable
  /-- The storage object of a call does not exist. -/
  | objectNotFound
  /-- The document of an update does not exist. -/
  | documentNotFound
  /-- `first` of an empty list. -/
  | noElement
  /-- A null check `!` of null. -/
  | nullCheck
  /-- A `late` variable read before it is assigned. -/
  | lateInitialization
  | couldNotBuildThumbnail
  deriving DecidableEq, Repr

/-- A write of a transaction. -/
inductive Write where
  | set (collection : CollectionPath) (id : String) (payload : Doc)
  | delete (collection : CollectionPath) (id : String)
  deriving DecidableEq, Repr

/-- A write sets the document `id` of a collection. -/
@[simp] def Write.Sets (path : CollectionPath) (id : String) : Write → Prop
  | .set c id' _ => c = path ∧ id' = id
  | .delete _ _ => False

/-- The notifiers whose state is one loading flag. -/
inductive Notifier where
  | imageUpload
  | sendComment
  | deleteComment
  | deletePost
  | editPost
  | sendChatMessage
  deriving DecidableEq, Repr

inductive AuthResult where
  | aborted
  | success
  | failure
  deriving DecidableEq, Repr

/-- The state of the authentication notifier. -/
structure AuthState where
  result : Option AuthResult
  isLoading : Bool
  userId : Option UserId
  deriving DecidableEq, Repr

/-- `AuthState.unknown`. -/
def AuthState.unknown : AuthState := ⟨none, false, none⟩

/-- `copiedWithIsLoading`. -/
def AuthState.copiedWithIsLoading (s : AuthState) (isLoading : Bool) : AuthState :=
  { s with isLoading := isLoading }

/-- The signed-in user as Firebase reports it. -/
structure FirebaseUser where
  uid : UserId
  displayName : Option String
  email : Option String
  phoneNumber : Option String
  photoURL : Option String
  deriving DecidableEq, Repr

/-- The account chosen in the Google sign-in dialog. -/
structure GoogleSignInAccount where
  id : String
  deriving DecidableEq, Repr

/-- The tokens of an account, which are also its credential. -/
structure GoogleSignInAuthentication where
  idToken : Option String
  accessToken : Option String
  deriving DecidableEq, Repr

/-- Everything the app awaits, and its notifiers' own state. -/
inductive Call where
  | setLoading (notifier : Notifier) (value : Bool)
  | authState
  | setAuthState (state : AuthState)
  | currentUser
  | now
  | uuidV4
  | readAsBytesSync (file : File)
  | decodeImage (bytes : Uint8List)
  | copyResize (image : Image) (width : Nat)
  | encodeJpg (image : Image)
  | thumbnailData (video : File) (maxHeight quality : Nat)
  | getAspectRatio (bytes : Uint8List)
  | putData (ref : Reference) (bytes : Uint8List)
  | putFile (ref : Reference) (file : File)
  | getDownloadURL (ref : Reference)
  | deleteObject (ref : Reference)
  | get (query : Query)
  | add (collection : CollectionPath) (payload : Doc)
  | update (collection : CollectionPath) (id : String) (fields : Doc)
  | delete (collection : CollectionPath) (id : String)
  | commit (writes : List Write)
  | googleSignIn
  | authentication (account : GoogleSignInAccount)
  | signInWithCredential (credential : GoogleSignInAuthentication)
  | firebaseSignOut
  | googleSignOut
  deriving DecidableEq, Repr

/-- A new document: its generated id and the time the server committed it. -/
structure Added where
  id : String
  commitTime : Timestamp
  deriving DecidableEq, Repr

/-- What each call answers when it returns. -/
abbrev Ans : Call → Type
  | .setLoading _ _ => Unit
  | .authState => AuthState
  | .setAuthState _ => Unit
  | .currentUser => Option FirebaseUser
  | .now => DateTime
  | .uuidV4 => String
  | .readAsBytesSync _ => Uint8List
  | .decodeImage _ => Option Image
  | .copyResize _ _ => Image
  | .encodeJpg _ => Uint8List
  | .thumbnailData _ _ _ => Option Uint8List
  | .getAspectRatio _ => ℚ
  | .putData _ _ => TaskSnapshot
  | .putFile _ _ => TaskSnapshot
  | .getDownloadURL _ => String
  | .deleteObject _ => Unit
  | .get _ => List DocSnapshot
  | .add _ _ => Added
  | .update _ _ _ => Unit
  | .delete _ _ => Unit
  | .commit _ => Timestamp
  | .googleSignIn => Option GoogleSignInAccount
  | .authentication _ => GoogleSignInAuthentication
  | .signInWithCredential _ => FirebaseUser
  | .firebaseSignOut => Unit
  | .googleSignOut => Unit

/-- A call that returned this answer wrote the document `id` of a collection. -/
@[simp] def Writes (path : CollectionPath) (id : String) : (c : Call) → Ans c → Prop
  | .add c _, added => c = path ∧ added.id = id
  | .update c id' _, _ => c = path ∧ id' = id
  | .commit writes, _ => ∃ write ∈ writes, write.Sets path id
  | _, _ => False

instance (path : CollectionPath) (id : String) (write : Write) :
    Decidable (write.Sets path id) := by
  cases write <;> dsimp only [Write.Sets] <;> infer_instance

instance (path : CollectionPath) (id : String) (c : Call) (a : Ans c) :
    Decidable (Writes path id c a) := by
  cases c <;> dsimp only [Writes] <;> infer_instance

/-- A call with its reply, as a run of the app records it. -/
abbrev AppEvent := Event (Fallible Exc Ans)

/-- The body of an app operation over locals `σ`. -/
abbrev Action (σ α : Type) := Async Ans Exc σ α

/-- Make one call and wait for its answer. -/
abbrev await {σ : Type} (c : Call) : Action σ (Ans c) := Async.call c

/-- The shared backend and the device of one app instance. -/
structure World where
  firestore : CollectionPath → Collection
  storage : Reference → Option Blob
  /-- The download URLs handed out, each with the object it serves. -/
  urls : List (String × Reference)
  /-- Every name that `Uuid().v4()` has returned. -/
  uuids : List String
  loading : Notifier → Bool
  authState : AuthState
  currentUser : Option FirebaseUser

namespace World

/-- Set a loading flag. -/
@[simps] def setLoading (w : World) (n : Notifier) (v : Bool) : World :=
  { w with loading := Function.update w.loading n v }

/-- Record a name that `Uuid().v4()` returned. -/
@[simps] def draw (w : World) (name : String) : World :=
  { w with uuids := name :: w.uuids }

/-- Store an object, replacing the one at its reference. -/
@[simps] def put (w : World) (ref : Reference) (blob : Blob) : World :=
  { w with storage := Function.update w.storage ref (some blob) }

/-- Remove an object. -/
@[simps] def remove (w : World) (ref : Reference) : World :=
  { w with storage := Function.update w.storage ref none }

/-- Hand out a download URL of an object. -/
@[simps] def handOut (w : World) (url : String) (ref : Reference) : World :=
  { w with urls := (url, ref) :: w.urls }

/-- Write a document of a collection, replacing the one with the same id. -/
@[simps] def setDoc (w : World) (c : CollectionPath) (id : String) (d : Doc) : World :=
  { w with firestore := Function.update w.firestore c ((w.firestore c).insert id d) }

/-- Remove a document of a collection, if it exists. -/
@[simps] def eraseDoc (w : World) (c : CollectionPath) (id : String) : World :=
  { w with firestore := Function.update w.firestore c ((w.firestore c).erase id) }

/-- Set the state of the authentication notifier. -/
@[simps] def setAuthState (w : World) (state : AuthState) : World := { w with authState := state }

/-- Set Firebase's current user. -/
@[simps] def setCurrentUser (w : World) (user : Option FirebaseUser) : World :=
  { w with currentUser := user }

/-- The effect of one write of a transaction committed at time `t`. -/
def write (w : World) (t : Timestamp) : Write → World
  | .set c id payload => w.setDoc c id (payload.resolve t)
  | .delete c id => w.eraseDoc c id

end World

/-- Calls that only touch the device's own memory cannot fail. -/
def Call.fallible : Call → Bool
  | .setLoading _ _ => false
  | .authState => false
  | .setAuthState _ => false
  | .currentUser => false
  | .now => false
  | .uuidV4 => false
  | _ => true

/-- The state after a call that returned, if the world can give this answer. -/
def World.perform (w : World) : (c : Call) → Ans c → Option World
  | .setLoading n v, _ => some (w.setLoading n v)
  | .authState, s => if s = w.authState then some w else none
  | .setAuthState s, _ => some (w.setAuthState s)
  | .currentUser, u => if u = w.currentUser then some w else none
  | .now, _ => some w
  | .uuidV4, name => if name ∈ w.uuids then none else some (w.draw name)
  | .readAsBytesSync file, bytes => if bytes.source = file then some w else none
  | .decodeImage bytes, image =>
    if image.all (fun i => i.source = bytes.source) then some w else none
  | .copyResize image width, resized =>
    if resized.source = image.source ∧ resized.width = width then some w else none
  | .encodeJpg image, bytes =>
    if bytes = ⟨image.source, image.width, image.height⟩ then some w else none
  | .thumbnailData video _ _, thumb =>
    if thumb.all (fun bytes => bytes.source = video) then some w else none
  | .getAspectRatio bytes, ratio => if ratio = bytes.aspectRatio then some w else none
  | .putData ref bytes, task =>
    if task.ref = ref then some (w.put ref (.data bytes)) else none
  | .putFile ref file, task =>
    if task.ref = ref then some (w.put ref (.file file)) else none
  | .getDownloadURL ref, url =>
    if (w.storage ref).isSome then some (w.handOut url ref) else none
  | .deleteObject ref, _ =>
    if (w.storage ref).isSome then some (w.remove ref) else none
  | .get query, docs => if docs = query.eval (w.firestore query.collection) then some w else none
  | .add c payload, added =>
    if added.id ∈ w.firestore c then none
    else some (w.setDoc c added.id (payload.resolve added.commitTime))
  | .update c id fields, _ =>
    match (w.firestore c)[id]? with
    | none => none
    | some d => some (w.setDoc c id (d.merge fields))
  | .delete c id, _ => some (w.eraseDoc c id)
  | .commit writes, t => some (writes.foldl (fun w => w.write t) w)
  | .googleSignIn, _ => some w
  | .authentication _, _ => some w
  | .signInWithCredential _, user => some (w.setCurrentUser (some user))
  | .firebaseSignOut, _ => some (w.setCurrentUser none)
  | .googleSignOut, _ => some w

/-- The failures a call can have in this state. -/
def World.fails (w : World) (c : Call) : Exc → Bool
  | .unavailable => c.fallible
  | .objectNotFound =>
    match c with
    | .getDownloadURL ref => (w.storage ref).isNone
    | .deleteObject ref => (w.storage ref).isNone
    | _ => false
  | .documentNotFound =>
    match c with
    | .update path id _ => (w.firestore path)[id]?.isNone
    | _ => false
  | _ => false

/-- The environment of the app. -/
def World.step : Environment World (Fallible Exc Ans) := fun w c r =>
  match r with
  | .ok a => w.perform c a
  | .error e => if w.fails c e then some w else none

/-- The world without these documents of a collection. -/
@[simps] def World.eraseDocs (w : World) (path : CollectionPath) (ids : List String) : World :=
  { w with firestore := Function.update w.firestore path ((w.firestore path).eraseAll ids) }

/-- A transaction of deletes erases the documents of its list. -/
theorem World.foldl_write_delete (w : World) (t : Timestamp) (path : CollectionPath)
    (ids : List String) :
    (ids.map (Write.delete path)).foldl (fun w => w.write t) w = w.eraseDocs path ids := by
  induction ids generalizing w with
  | nil => simp [World.eraseDocs, Collection.eraseAll]
  | cons id ids ih =>
    rw [List.map_cons, List.foldl_cons, ih]
    simp only [World.write, World.eraseDoc, World.eraseDocs, Function.update_self,
      Function.update_idem, Collection.eraseAll, List.foldl_cons]

/-- Removing a document that does not exist changes nothing. -/
theorem World.eraseDoc_of_none {w : World} {c : CollectionPath} {id : String}
    (h : (w.firestore c)[id]? = none) : w.eraseDoc c id = w := by
  have herase : (w.firestore c).erase id = w.firestore c := by
    refine Std.ExtTreeMap.ext_getElem? fun id' => ?_
    rw [Collection.getElem?_erase]
    by_cases hid : id = id'
    · rw [if_pos hid, ← hid, h]
    · rw [if_neg hid]
  rw [World.eraseDoc, herase, Function.update_eq_self]

/-- A failing call leaves the world as it was. -/
theorem World.step_error {w w' : World} {c : Call} {e : Exc}
    (h : World.step w c (.error e) = some w') : w' = w := by
  simp only [World.step] at h
  split at h
  · exact (Option.some.inj h).symm
  · cases h

theorem World.step_ok {w : World} {c : Call} {a : Ans c} :
    World.step w c (.ok a) = w.perform c a := rfl

end TekkGram
