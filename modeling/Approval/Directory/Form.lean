import Approval.Directory.Basic

/-!
# The directory in JSON

How users, roles, permissions and actors are written as JSON and decoded.
-/

namespace Approval

open RecordDecoder (required maybe orElse)

def Id.listJson {kind : Kind} (ids : List (Id kind)) : Json := .array (ids.map Id.json)

/-- A permission as a JSON value. -/
def Permission.json (p : Permission) : Json :=
  .object
    [("action", .text p.action),
     ("created_at", p.createdAt.json),
     ("description", Json.ofOption .text p.description),
     ("id", p.id.json),
     ("name", .text p.name),
     ("resource", .text p.resource)]

/-- Decode a permission. -/
def Permission.decode : Decoder Permission :=
  (Permission.mk <$> required "id" Id.decode <*> required "name" Decoder.text <*>
    required "resource" Decoder.text <*> required "action" Decoder.text <*>
    maybe "description" Decoder.text <*> required "created_at" Instant.decode).decode

/-- A role as a JSON value. -/
def Role.json (r : Role) : Json :=
  .object
    [("created_at", r.createdAt.json),
     ("description", Json.ofOption .text r.description),
     ("id", r.id.json),
     ("name", .text r.name),
     ("permission_ids", Id.listJson r.permissionIds)]

/-- Decode a role. -/
def Role.decode : Decoder Role :=
  (Role.mk <$> required "id" Id.decode <*> required "name" Decoder.text <*>
    maybe "description" Decoder.text <*> required "permission_ids" (Decoder.list Id.decode) <*>
    required "created_at" Instant.decode).decode

/-- A user as a JSON value. -/
def User.json (u : User) : Json :=
  .object
    [("created_at", u.createdAt.json),
     ("full_name", .text u.fullName),
     ("id", u.id.json),
     ("is_active", .bool u.isActive),
     ("role_ids", Id.listJson u.roleIds),
     ("username", .text u.username)]

/-- Decode a user. -/
def User.decode : Decoder User :=
  (User.mk <$> required "id" Id.decode <*> required "username" Decoder.text <*>
    required "full_name" Decoder.text <*> required "is_active" Decoder.bool <*>
    required "role_ids" (Decoder.list Id.decode) <*> required "created_at" Instant.decode).decode

/-- An actor as a JSON value. -/
def Actor.json (a : Actor) : Json :=
  .object
    [("is_admin", .bool a.isAdmin),
     ("permission_ids", Id.listJson a.permissionIds),
     ("role_ids", Id.listJson a.roleIds),
     ("user_id", a.userId.json),
     ("username", .text a.username)]

/-- Decode an actor. -/
def Actor.decode : Decoder Actor :=
  (Actor.mk <$> required "user_id" Id.decode <*> required "username" Decoder.text <*>
    required "role_ids" (Decoder.list Id.decode) <*>
    required "permission_ids" (Decoder.list Id.decode) <*>
    required "is_admin" Decoder.bool).decode

/-- A permission draft as a JSON value. -/
def PermissionDraft.json (p : PermissionDraft) : Json :=
  .object
    [("action", .text p.action),
     ("description", Json.ofOption .text p.description),
     ("name", .text p.name),
     ("resource", .text p.resource)]

/-- Decode a permission draft. -/
def PermissionDraft.decode : Decoder PermissionDraft :=
  (PermissionDraft.mk <$> required "name" Decoder.text <*> required "resource" Decoder.text <*>
    required "action" Decoder.text <*> maybe "description" Decoder.text).decode

/-- A role draft as a JSON value. -/
def RoleDraft.json (r : RoleDraft) : Json :=
  .object
    [("description", Json.ofOption .text r.description),
     ("name", .text r.name),
     ("permission_names", .array (r.permissionNames.map .text))]

/-- Decode a role draft. -/
def RoleDraft.decode : Decoder RoleDraft :=
  (RoleDraft.mk <$> required "name" Decoder.text <*> maybe "description" Decoder.text <*>
    orElse "permission_names" (Decoder.list Decoder.text) []).decode

/-- A user draft as a JSON value. -/
def UserDraft.json (u : UserDraft) : Json :=
  .object
    [("full_name", Json.ofOption .text u.fullName),
     ("role_names", .array (u.roleNames.map .text)),
     ("username", .text u.username)]

/-- Decode a user draft. -/
def UserDraft.decode : Decoder UserDraft :=
  (UserDraft.mk <$> required "username" Decoder.text <*> maybe "full_name" Decoder.text <*>
    orElse "role_names" (Decoder.list Decoder.text) []).decode

end Approval
