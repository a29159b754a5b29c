import Covenant.Registry

namespace Covenant.Sample

def userId : RecordSchema := .ofDeclarations "UserIdPath" none [("id", .integer)]

def user : RecordSchema :=
  .ofDeclarations "UserResponse" (some "A registered user")
    [("id", .integer), ("name", .text), ("email", .text)]

def userList : RecordSchema :=
  .ofDeclarations "UserListResponse" (some "A page of users")
    [("users", .list (.record user)), ("total", .integer)]

def newUser : RecordSchema :=
  .ofDeclarations "CreateUserRequest" none [("name", .text), ("email", .text)]

def changedUser : RecordSchema :=
  .ofDeclarations "UpdateUserRequest" none [("id", .integer), ("name", .text), ("email", .text)]

def failure : RecordSchema :=
  .ofDeclarations "ErrorResponse" (some "Error payload") [("code", .text), ("message", .text)]

def noInput : RecordSchema := .empty "ListUsersRequest" none

def getUser : Contract :=
  ⟨.make [] userId (some userId) none,
    [(.success, .make user none), (.notFound, .make failure none)]⟩

def listUsers : Contract := ⟨.make [] noInput none none, [(.success, .make userList none)]⟩

def createUser : Contract := ⟨.make [] newUser none (some newUser), [(.created, .make user none)]⟩

def updateUser : Contract :=
  ⟨.make [] changedUser (some userId) (some newUser), [(.success, .make user none)]⟩

def get : Method := ⟨"GET", by decide⟩

def post : Method := ⟨"POST", by decide⟩

def put : Method := ⟨"PUT", by decide⟩

def registry : Registry :=
  ⟨[⟨"getUser", get, "/users/\x7bid\x7d", getUser⟩, ⟨"listUsers", get, "/users", listUsers⟩,
    ⟨"createUser", post, "/users", createUser⟩,
    ⟨"updateUser", put, "/users/\x7bid\x7d", updateUser⟩]⟩

end Covenant.Sample
