import AggroApp.Model.Store

/-!
# AggroApp — the service layer

`API/Service.swift`, together with the two asynchronous chains that the login
screens put around it (the Google sheet of `handleGoogleLogin` and the picture
upload of `handleSignUp`).

Each operation starts a chain of backend calls. A `Call` is a request in
flight together with the variables that its callback captured, and running a
callback gives a `Step`: it asks for the next call, runs the completion,
returns at a guard, or traps on a forced unwrap. The completions are left
abstract, one type for each completion signature:

* `κ` — `(Error?) -> Void`, the `FirestoreCompletion`, `DatabaseCompletion`,
  `AuthDataResultCallback` and `SendPasswordResetCallback` closures;
* `υ` — `(User) -> Void`;
* `ι` — `(String) -> Void`.

`Operation.start` is the synchronous part of each operation, up to its first
backend call; the `run` functions of the callback types are the closures.
-/

namespace AggroApp

/-- `GIDGoogleUser`, as far as its `authentication` is read. -/
structure GIDGoogleUser where
  idToken : Option String
  accessToken : String
  deriving DecidableEq, Repr

/-- `GoogleAuthProvider.credential(withIDToken:accessToken:)`. -/
structure AuthCredential where
  idToken : String
  accessToken : String
  deriving DecidableEq, Repr

/-- `result.user` of an `AuthDataResult`. -/
structure AuthUser where
  uid : Uid
  email : Option String
  displayName : Option String
  photoURL : Option String
  deriving DecidableEq, Repr

/-- `NSUUID().uuidString`: the name of a stored picture. -/
abbrev Filename := String

/-- The bytes of `jpegData(compressionQuality:)`, quality in per cent. -/
structure JPEGData where
  content : String
  quality : Nat
  deriving DecidableEq, Repr

/-- A picked picture; not every image has a JPEG representation. -/
structure UIImage where
  content : String
  encodable : Bool
  deriving DecidableEq, Repr

/-- `image.jpegData(compressionQuality:)`. -/
def UIImage.jpegData (image : UIImage) (quality : Nat) : Option JPEGData :=
  if image.encodable then some ⟨image.content, quality⟩ else none

/-- The optionals that the app unwraps by force. -/
inductive ForceUnwrap
  | gidUser
  | snapshot
  | profileImageUrl
  | fullname
  deriving DecidableEq, Repr

-- ---------------------------------------------------------------------------
-- Calls and callbacks
-- ---------------------------------------------------------------------------

/-- The requests to Auth that sign an account in. -/
inductive AuthRequest
  | createUser (email password : String)
  | signIn (email password : String)
  | signInWith (credential : AuthCredential)
  deriving DecidableEq, Repr

/-- The callbacks of these requests. -/
inductive AuthCallback (κ : Type)
  | logUserIn (completion : κ)
  | registerUserWithFirebase (email fullname : String) (completion : κ)
  | registerUserWithFirestore (email fullname profileImageUrl : String) (completion : κ)
  | signInWithGoogle (completion : κ)
  | signInWitnGoogleFirestore (completion : κ)
  deriving DecidableEq, Repr

/-- The callbacks of `getDocument`. -/
inductive DocumentCallback (κ υ : Type)
  | signInWitnGoogleFirestore (user : AuthUser) (completion : κ)
  | fetchUserWithFirestore (comletion : υ)
  deriving DecidableEq, Repr

/-- The callbacks of `updateData`: a completion, or the closure of
`updateProfileImage`. -/
inductive UpdateCallback (κ ι : Type)
  | direct (completion : κ)
  | updateProfileImage (profileImageUrl : String) (completion : ι)
  deriving DecidableEq, Repr

/-- The callbacks of `putData`, and of the `downloadURL` that follows it. -/
inductive StorageCallback (κ ι : Type)
  | updateProfileImage (uid : Uid) (completion : ι)
  | handleSignUp (email password fullname : String) (completion : κ)
  deriving DecidableEq, Repr

/-- The blocks of `observeSingleEvent`. -/
inductive EventCallback (κ υ : Type)
  | signInWithGoogle (user : AuthUser) (completion : κ)
  | fetchUser (comletion : υ)
  deriving DecidableEq, Repr

/-- A backend call in flight. -/
inductive Call (κ υ ι : Type)
  | auth (request : AuthRequest) (callback : AuthCallback κ)
  | gidSignIn (completion : κ)
  | sendPasswordReset (email : String) (completion : κ)
  | getDocument (uid : Uid) (callback : DocumentCallback κ υ)
  | setData (uid : Uid) (values : Fields) (completion : κ)
  | updateData (uid : Uid) (data : Fields) (callback : UpdateCallback κ ι)
  | putData (filename : Filename) (data : JPEGData) (callback : StorageCallback κ ι)
  | downloadURL (filename : Filename) (callback : StorageCallback κ ι)
  | observeSingleEvent (uid : Uid) (callback : EventCallback κ υ)
  | updateChildValues (ref : DatabaseReference) (values : Fields) (completion : κ)
  | setValue (uid : Uid) (key : String) (value : Value) (completion : κ)
  deriving DecidableEq, Repr

/-- How the synchronous part of an operation, or a callback, ends. -/
inductive Step (κ υ ι : Type)
  | quit
  | trap (what : ForceUnwrap)
  | completed (completion : κ) (error : Option Error)
  | fetched (comletion : υ) (user : User)
  | uploaded (completion : ι) (profileImageUrl : String)
  | wait (call : Call κ υ ι)
  deriving DecidableEq, Repr

variable {κ υ ι : Type}

-- ---------------------------------------------------------------------------
-- The operations, up to their first backend call
-- ---------------------------------------------------------------------------

namespace Service

def logUserIn (email password : String) (completion : κ) : Step κ υ ι :=
  .wait (.auth (.signIn email password) (.logUserIn completion))

def registerUserWithFirebase (email password fullname : String) (completion : κ) :
    Step κ υ ι :=
  .wait (.auth (.createUser email password)
    (.registerUserWithFirebase email fullname completion))

def registerUserWithFirestore (email password fullname profileImageUrl : String)
    (completion : κ) : Step κ υ ι :=
  .wait (.auth (.createUser email password)
    (.registerUserWithFirestore email fullname profileImageUrl completion))

/-- `GoogleAuthProvider.credential(withIDToken: idToken ?? "", accessToken:)`. -/
def googleCredential (user : GIDGoogleUser) : AuthCredential :=
  ⟨user.idToken.getD "", user.accessToken⟩

def signInWithGoogle (user : GIDGoogleUser) (completion : κ) : Step κ υ ι :=
  .wait (.auth (.signInWith (googleCredential user)) (.signInWithGoogle completion))

def signInWitnGoogleFirestore (user : GIDGoogleUser) (completion : κ) : Step κ υ ι :=
  .wait (.auth (.signInWith (googleCredential user)) (.signInWitnGoogleFirestore completion))

def fetchUser (currentUser : Option Uid) (comletion : υ) : Step κ υ ι :=
  match currentUser with
  | none => .quit
  | some uid => .wait (.observeSingleEvent uid (.fetchUser comletion))

def fetchUserWithFirestore (currentUser : Option Uid) (comletion : υ) : Step κ υ ι :=
  match currentUser with
  | none => .quit
  | some uid => .wait (.getDocument uid (.fetchUserWithFirestore comletion))

def updateUserHasSeenOnboarding (currentUser : Option Uid) (completion : κ) : Step κ υ ι :=
  match currentUser with
  | none => .quit
  | some uid => .wait (.setValue uid "hasSeenOnboarding" (.bool true) completion)

def updateUserHasSeenOnboardingFirestore (currentUser : Option Uid) (completion : κ) :
    Step κ υ ι :=
  match currentUser with
  | none => .quit
  | some uid =>
    .wait (.updateData uid [("hasSeenOnboarding", .bool true)] (.direct completion))

def resetPassword (email : String) (completion : κ) : Step κ υ ι :=
  .wait (.sendPasswordReset email completion)

def updateUserData (currentUser : Option Uid) (user : User) (completion : κ) : Step κ υ ι :=
  match currentUser with
  | none => .quit
  | some uid =>
    .wait (.updateData uid [("fullname", .string user.fullname)] (.direct completion))

def updateProfileImage (currentUser : Option Uid) (image : UIImage) (filename : Filename)
    (completion : ι) : Step κ υ ι :=
  match image.jpegData 30 with
  | none => .quit
  | some imageData =>
    match currentUser with
    | none => .quit
    | some uid => .wait (.putData filename imageData (.updateProfileImage uid completion))

end Service

-- ---------------------------------------------------------------------------
-- The callbacks
-- ---------------------------------------------------------------------------

/-- The closures of `createUser` and `signIn`, as `(result, error)`. -/
def AuthCallback.run (callback : AuthCallback κ) (result : Option AuthUser)
    (error : Option Error) : Step κ υ ι :=
  match callback with
  | .logUserIn completion => .completed completion error
  | .registerUserWithFirebase email fullname completion =>
    match error with
    | some error => .completed completion (some error)
    | none =>
      match result with
      | none => .quit
      | some user =>
        .wait (.updateChildValues (.child user.uid) (recordValues email fullname) completion)
  | .registerUserWithFirestore email fullname profileImageUrl completion =>
    match error with
    | some error => .completed completion (some error)
    | none =>
      match result with
      | none => .quit
      | some user =>
        .wait (.setData user.uid
          (profileValues email fullname profileImageUrl user.uid) completion)
  -- neither Google path hands a sign-in error to its completion
  | .signInWithGoogle completion =>
    match error with
    | some _ => .quit
    | none =>
      match result with
      | none => .quit
      | some user => .wait (.observeSingleEvent user.uid (.signInWithGoogle user completion))
  | .signInWitnGoogleFirestore completion =>
    match error with
    | some _ => .quit
    | none =>
      match result with
      | none => .quit
      | some user => .wait (.getDocument user.uid (.signInWitnGoogleFirestore user completion))

/-- The closure of `GIDSignIn.signIn(with:presenting:)` in `handleGoogleLogin`. -/
def gidSignInCallback (completion : κ) (user : Option GIDGoogleUser) (error : Option Error) :
    Step κ υ ι :=
  match error with
  | some _ => .quit
  | none =>
    match user with
    | none => .trap .gidUser
    | some user => Service.signInWitnGoogleFirestore user completion

/-- The closures of `getDocument`, as `(snapshot, error)`; a snapshot of a
missing document holds no dictionary. -/
def DocumentCallback.run (callback : DocumentCallback κ υ)
    (snapshot : Option (Option Document)) (error : Option Error) : Step κ υ ι :=
  match callback with
  | .signInWitnGoogleFirestore user completion =>
    match snapshot with
    | none => .trap .snapshot
    | some none =>
      match user.email with
      | none => .quit
      | some email =>
        match user.displayName with
        | none => .quit
        | some fullname =>
          match user.photoURL with
          | none => .quit
          | some profileImageUrl =>
            .wait (.setData user.uid
              (profileValues email fullname profileImageUrl user.uid) completion)
    | some (some _) => .completed completion error
  | .fetchUserWithFirestore comletion =>
    match snapshot.join with
    | none => .quit
    | some dictionary => .fetched comletion (User.ofDictionary dictionary)

/-- The closures of `updateData`. -/
def UpdateCallback.run (callback : UpdateCallback κ ι) (error : Option Error) : Step κ υ ι :=
  match callback with
  | .direct completion => .completed completion error
  -- the error of the profile write is not looked at
  | .updateProfileImage profileImageUrl completion => .uploaded completion profileImageUrl

/-- The closures of `putData`: its error is not looked at either. -/
def StorageCallback.stored (callback : StorageCallback κ ι) (filename : Filename) :
    Step κ υ ι :=
  .wait (.downloadURL filename callback)

/-- The closures of `downloadURL`, as `(url, error)`. -/
def StorageCallback.run (callback : StorageCallback κ ι) (url : Option String)
    (_error : Option Error) : Step κ υ ι :=
  match url with
  | none => .quit
  | some profileImageUrl =>
    match callback with
    | .updateProfileImage uid completion =>
      .wait (.updateData uid [("profileImageUrl", .string profileImageUrl)]
        (.updateProfileImage profileImageUrl completion))
    | .handleSignUp email password fullname completion =>
      Service.registerUserWithFirestore email password fullname profileImageUrl completion

/-- The blocks of `observeSingleEvent`, on the node that stands at the child
`uid`. -/
def EventCallback.run (callback : EventCallback κ υ) (uid : Uid) (snapshot : Option Node) :
    Step κ υ ι :=
  match callback with
  | .signInWithGoogle user completion =>
    match snapshot with
    | none =>
      match user.email with
      | none => .quit
      | some email =>
        match user.displayName with
        | none => .quit
        -- the record is written to `DB_USERS_REF` itself, not to its child
        | some fullname =>
          .wait (.updateChildValues .users (recordValues email fullname) completion)
    | some _ => .completed completion none
  | .fetchUser comletion =>
    match snapshot.bind Node.dictionary with
    | none => .quit
    | some dictionary => .fetched comletion (User.ofRecord uid dictionary)

-- ---------------------------------------------------------------------------
-- Entry points
-- ---------------------------------------------------------------------------

/-- The operations that the app starts, with their arguments. `handleSignUp`
starts with the upload of the chosen picture. -/
inductive Operation (κ υ ι : Type)
  | logUserIn (email password : String) (completion : κ)
  | registerUserWithFirebase (email password fullname : String) (completion : κ)
  | registerUserWithFirestore (email password fullname profileImageUrl : String)
      (completion : κ)
  | signInWithGoogle (user : GIDGoogleUser) (completion : κ)
  | signInWitnGoogleFirestore (user : GIDGoogleUser) (completion : κ)
  | fetchUser (comletion : υ)
  | fetchUserWithFirestore (comletion : υ)
  | updateUserHasSeenOnboarding (completion : κ)
  | updateUserHasSeenOnboardingFirestore (completion : κ)
  | resetPassword (email : String) (completion : κ)
  | updateUserData (user : User) (completion : κ)
  | updateProfileImage (image : UIImage) (filename : Filename) (completion : ι)
  | handleGoogleLogin (completion : κ)
  | handleSignUp (email password fullname : String) (profileImage : UIImage)
      (filename : Filename) (completion : κ)
  deriving DecidableEq, Repr

/-- Run the synchronous part of an operation under the session `currentUser`. -/
def Operation.start (currentUser : Option Uid) : Operation κ υ ι → Step κ υ ι
  | .logUserIn email password completion => Service.logUserIn email password completion
  | .registerUserWithFirebase email password fullname completion =>
    Service.registerUserWithFirebase email password fullname completion
  | .registerUserWithFirestore email password fullname profileImageUrl completion =>
    Service.registerUserWithFirestore email password fullname profileImageUrl completion
  | .signInWithGoogle user completion => Service.signInWithGoogle user completion
  | .signInWitnGoogleFirestore user completion =>
    Service.signInWitnGoogleFirestore user completion
  | .fetchUser comletion => Service.fetchUser currentUser comletion
  | .fetchUserWithFirestore comletion => Service.fetchUserWithFirestore currentUser comletion
  | .updateUserHasSeenOnboarding completion =>
    Service.updateUserHasSeenOnboarding currentUser completion
  | .updateUserHasSeenOnboardingFirestore completion =>
    Service.updateUserHasSeenOnboardingFirestore currentUser completion
  | .resetPassword email completion => Service.resetPassword email completion
  | .updateUserData user completion => Service.updateUserData currentUser user completion
  | .updateProfileImage image filename completion =>
    Service.updateProfileImage currentUser image filename completion
  | .handleGoogleLogin completion => .wait (.gidSignIn completion)
  | .handleSignUp email password fullname profileImage filename completion =>
    match profileImage.jpegData 10 with
    | none => .quit
    | some imageData =>
      .wait (.putData filename imageData (.handleSignUp email password fullname completion))

end AggroApp
