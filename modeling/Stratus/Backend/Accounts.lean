import Mathlib.Algebra.GroupWithZero.Nat
import Stratus.Backend.LocalStore

/-! `authController.ts`: the requests that make or look up accounts.  Everything a handler
throws is answered with 400 and the text of the error. -/
namespace Stratus.Backend

open Stratus.Lib

/-- What a token says. -/
structure Token where
  userId : String
  email : Option String

/-- `jsonwebtoken` with the secret of the server, if it has one. -/
structure Jwt where
  sign : Token → Except String String
  verify : String → Except String Token

/-- A password in a body; of a value that is not a text only the test `length < 8` is
told. -/
inductive Password where
  | text (value : String)
  | other (short : Bool)

def utf16Length (text : String) : Nat :=
  (text.toList.map fun c => if c.toNat < 0x10000 then 1 else 2).sum

def Password.truthy : Password → Bool
  | .text value => value ≠ ""
  | .other _ => true

def Password.short : Password → Bool
  | .text value => utf16Length value < 8
  | .other short => short

/-- The body of a request; a password that is falsy and no text is not there. -/
structure Credentials where
  username : Option Json
  password : Option Password
  email : Option String

/-- The test `!username || !password`. -/
def Credentials.given (body : Credentials) : Option (Json × Password) :=
  match body.username, body.password with
  | some username, some password =>
      if username.truthy && password.truthy then some (username, password) else none
  | _, _ => none

inductive AuthAnswer where
  /-- 200 -/
  | found (token : String) (user : Json)
  /-- 201 -/
  | created (token : Option String) (user : Json)
  /-- 400 -/
  | badRequest (error : String)
  /-- 401 -/
  | unauthorized (error : String)
  /-- 409 -/
  | conflict (error : String)

def toPublicUser (user : Entry) : Json :=
  .object
    [("UserID", user.value.field "UserID"),
      ("Username", user.value.field "Username"),
      ("Email", user.value.field "Email")]

/-- A member of a record that is a text. -/
def textOf (key : String) (e : Entry) : Option String :=
  match e.value.field key with
  | some (.str value) => some value
  | _ => none

/-- A call that may throw. -/
def attempt {α : Type} : Except String α → Async α
  | .ok a => return a
  | .error message => .fail message

def getTokenFromAuthorizationHeader : Option String → Except String String
  | some header =>
      if "Bearer ".toList.isPrefixOf header.toList then
        .ok (String.ofList (header.toList.drop "Bearer ".length))
      else .error "Authorization header missing or malformed"
  | none => .error "Authorization header missing or malformed"

/-- `scrypt` takes a text and is done elsewhere; `hash` is what comes out. -/
def hashPassword (password : Password) (hash : String) : Async String :=
  match password with
  | .text _ => do
      tick
      return hash
  | .other _ => .fail "The password argument must be of type string"

/-- `valid` is what comes out; there is nothing to compare with if the stored hash is not
one. -/
def verifyPassword (password : Password) (valid : Option Bool) : Async Bool :=
  match valid with
  | none => return false
  | some valid =>
      match password with
      | .text _ => do
          tick
          return valid
      | .other _ => .fail "The password argument must be of type string"

def hasUsers : Async Bool := getter fun d => !d.users.isEmpty

section Handlers

variable (js : Unicode) (jwt : Jwt)

/-- `createUser` with a name that need not be a text. -/
def createUserNamed (username : Json) (input : String → NewUser) (uuid : String) : Async Result :=
  match username with
  | .str username => createUser js (input username) uuid
  | _ => do
      call ensureLoaded
      .fail "input.username.trim is not a function"

def getUserNamed (username : Json) : Async (Option Entry) :=
  match username with
  | .str username => getUserByUsername js username
  | _ => do
      call ensureLoaded
      .fail "username.trim is not a function"

/-- `return res.status(201)...` with a token. -/
def welcome (result : Result) : Async AuthAnswer :=
  match result with
  | .created _ user => do
      let token ← attempt (jwt.sign ⟨(textOf "UserID" user).getD "", none⟩)
      return .created (some token) (toPublicUser user)
  | _ => .fail ""

/-- An account with a password. -/
def createLocal (username : Json) (password : Password) (email hash uuid : String) :
    Async AuthAnswer := do
  let passwordHash ← call (hashPassword password hash)
  let createdUser ← call (createUserNamed js username
    (fun username => ⟨none, username, some email, .local, some passwordHash⟩) uuid)
  welcome jwt createdUser

def controllerRegisterLocal (body : Credentials) (hash uuid : String) : Async AuthAnswer :=
  match body.given with
  | none => return .badRequest "Username and password are required"
  | some (username, password) =>
      if password.short then return .badRequest "Password must be at least 8 characters"
      else createLocal js jwt username password "" hash uuid

def controllerLoginLocal (body : Credentials) (valid : Option Bool) : Async AuthAnswer :=
  match body.given with
  | none => return .badRequest "Username and password are required"
  | some (username, password) => do
      match ← call (getUserNamed js username) with
      | none => return .unauthorized "Invalid username or password"
      | some user =>
          if hasText "AuthProvider" "local" user && (textOf "PasswordHash" user).any (· ≠ "") then
            if ← call (verifyPassword password valid) then
              let token ← attempt (jwt.sign ⟨(textOf "UserID" user).getD "",
                (textOf "Email" user).filter (· ≠ "")⟩)
              return .found token (toPublicUser user)
            else return .unauthorized "Invalid username or password"
          else return .unauthorized "Invalid username or password"

def controllerCreateUser (username : Option Json) (authorization : Option String) (uuid : String) :
    Async AuthAnswer :=
  match username.filter Json.truthy with
  | none => .fail "Username is required"
  | some username => do
      let token ← attempt (getTokenFromAuthorizationHeader authorization)
      let decodedToken ← attempt (jwt.verify token)
      match ← call (createUserNamed js username
        (fun username => ⟨some decodedToken.userId, username, some (decodedToken.email.getD ""),
          .google, none⟩) uuid) with
      | .created _ user => return .created none (toPublicUser user)
      | _ => .fail ""

/-- What `ControllerBootstrap` does with the answer of `hasUsers`. -/
def bootstrapUnless (username : Json) (password : Password) (email hash uuid : String)
    (usersExist : Bool) : Async AuthAnswer :=
  if usersExist then return .conflict "Bootstrap already completed — users exist"
  else createLocal js jwt username password email hash uuid

def controllerBootstrap (body : Credentials) (hash uuid : String) : Async AuthAnswer :=
  match body.given with
  | none => return .badRequest "Username and password are required"
  | some (username, password) =>
      if password.short then return .badRequest "Password must be at least 8 characters"
      else do
        let usersExist ← call hasUsers
        bootstrapUnless js jwt username password (orText body.email "") hash uuid usersExist

/-- The requests, with what is drawn at random for them or computed elsewhere. -/
inductive AuthRequest where
  | registerLocal (body : Credentials) (hash uuid : String)
  | loginLocal (body : Credentials) (valid : Option Bool)
  | createUser (username : Option Json) (authorization : Option String) (uuid : String)
  | bootstrap (body : Credentials) (hash uuid : String)

def handle : AuthRequest → Async AuthAnswer
  | .registerLocal body hash uuid => controllerRegisterLocal js jwt body hash uuid
  | .loginLocal body valid => controllerLoginLocal js jwt body valid
  | .createUser username authorization uuid =>
      controllerCreateUser js jwt username authorization uuid
  | .bootstrap body hash uuid => controllerBootstrap js jwt body hash uuid

end Handlers

abbrev AccountWorld := World Request Request.Answer Store AuthRequest AuthAnswer

def accountSystem (js : Unicode) (jwt : Jwt) (init : Store → Prop) : System AccountWorld :=
  World.system answers (handle js jwt) Writes init

/-! ### Users -/

/-- The users of the store, if it is loaded. -/
def Store.users (s : Store) : List Entry :=
  match s.storeData with
  | some d => d.users
  | none => []

/-- No two users have the same id or, apart from blanks and case, the same name. -/
structure UniqueUsers (js : Unicode) (users : List Entry) : Prop where
  ids : ∀ {i j : Nat} {e e' : Entry} {id : String}, users[i]? = some e → users[j]? = some e' →
    hasText "UserID" id e = true → hasText "UserID" id e' = true → i = j
  names : ∀ {i j : Nat} {e e' : Entry} {name : String}, users[i]? = some e → users[j]? = some e' →
    hasUsername js name e = true → hasUsername js name e' = true → i = j

end Stratus.Backend
