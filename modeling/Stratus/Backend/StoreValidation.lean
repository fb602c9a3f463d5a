import Stratus.Lib.Json

/-! `storeValidation.ts`. -/
namespace Stratus.Backend

open Stratus.Lib

structure ValidationResult where
  valid : Bool
  errors : List String

def ValidationResult.of (errors : List String) : ValidationResult where
  valid := errors.isEmpty
  errors := errors

def requiredString (data : Json) (key : String) : List String :=
  match data.field key with
  | some (.str value) => if value = "" then [key ++ " is required and must be a string"] else []
  | _ => [key ++ " is required and must be a string"]

def optionalString (data : Json) (key : String) : List String :=
  match data.field key with
  | none => []
  | some value => if value.isString then [] else [key ++ " must be a string if provided"]

/-- Only the first item that is not a string is reported. -/
def optionalStrings (data : Json) (key : String) : List String :=
  match data.field key with
  | none => []
  | some (.arr items) =>
      match items.findIdx? fun item => !item.isString with
      | none => []
      | some i => [key ++ "[" ++ toString i ++ "] must be a string"]
  | some _ => [key ++ " must be an array if provided"]

def optionalNumber (data : Json) (key : String) : List String :=
  match data.field key with
  | none => []
  | some value => if value.isNumber then [] else [key ++ " must be a number if provided"]

/-- A field that, if it is there, has one of the given texts. -/
def oneOf (data : Json) (key : String) (texts : List String) (error : String) : List String :=
  match data.field key with
  | none => []
  | some (.str value) => if texts.contains value then [] else [error]
  | some _ => [error]

def validateUserRecord (data : Json) : ValidationResult :=
  if data.isObject then
    .of (requiredString data "UserID" ++ requiredString data "Username" ++
      optionalString data "Email" ++
      oneOf data "AuthProvider" ["google", "local"] "AuthProvider must be 'google' or 'local'" ++
      optionalString data "PasswordHash")
  else ⟨false, ["User record must be an object"]⟩

def validateGameRecord (data : Json) : ValidationResult :=
  if data.isObject then
    .of (requiredString data "GameID" ++ requiredString data "title" ++
      optionalString data "developer" ++ optionalStrings data "genres" ++
      optionalString data "lDescript" ++ optionalStrings data "s3" ++
      optionalString data "sDescript" ++
      oneOf data "source" ["steam", "non-steam", "manual", "seed"]
        "source must be one of: steam, non-steam, manual, seed" ++
      optionalNumber data "appid" ++ optionalString data "installdir")
  else ⟨false, ["Game record must be an object"]⟩

/-- The part of `validateStoreData` for one of the two arrays. -/
def validateRecords (data : Json) (key : String) (validate : Json → ValidationResult) :
    List String :=
  match data.field key with
  | none => []
  | some (.arr items) =>
      items.zipIdx.flatMap fun item =>
        (validate item.1).errors.map fun error => key ++ "[" ++ toString item.2 ++ "]: " ++ error
  | some _ => [key ++ " must be an array"]

def validateStoreData (data : Json) : ValidationResult :=
  if data.isObject then
    .of (validateRecords data "users" validateUserRecord ++
      validateRecords data "games" validateGameRecord)
  else ⟨false, ["Store data must be an object"]⟩

end Stratus.Backend
