/-!
# Operations

The kinds of request, with the method that each is sent with and the resource that is signed
for it.
-/

namespace ObjectStore

/-- What a request does. -/
inductive Operation
  | get
  | put
  | list
  | delete
  | bulkDelete
  deriving Repr, DecidableEq, Inhabited

/-- The method of a request line. -/
inductive Method
  | get
  | put
  | delete
  | post
  deriving Repr, DecidableEq

/-- The spelling of a method. -/
def Method.name : Method → String
  | .get => "GET"
  | .put => "PUT"
  | .delete => "DELETE"
  | .post => "POST"

namespace Operation

/-- The method that an operation is sent with. -/
def method : Operation → Method
  | .get | .list => .get
  | .put => .put
  | .delete => .delete
  | .bulkDelete => .post

/-- The verb on the first line of what is signed. -/
def verb : Operation → String
  | .get | .list => "GET"
  | .put => "PUT"
  | .delete => "DELETE"
  | .bulkDelete => "POST"

/-- The name of an operation. -/
def name : Operation → String
  | .get => "GET"
  | .put => "PUT"
  | .list => "LIST"
  | .delete => "DELETE"
  | .bulkDelete => "BULK_DELETE"

/-- The operations. -/
def all : List Operation := [.get, .put, .list, .delete, .bulkDelete]

/-- The operation of a name. -/
def ofName? (name : String) : Option Operation := all.find? (·.name == name)

/-- The path of a request target, with a slash at its head and without the query. -/
def objectResource (target : List Char) : List Char :=
  let path := target.takeWhile (· != '?')
  if path.head? = some '/' then path else '/' :: path

/-- The resource that is signed. Filters of a listing are not part of it. -/
def resource (op : Operation) (target : List Char) : List Char :=
  match op with
  | .list => ['/']
  | .get | .put | .delete => objectResource target
  | .bulkDelete => objectResource target ++ "?delete".toList

/-- The resource that is signed, as a text. -/
def resourceName (op : Operation) (target : String) : String :=
  String.ofList (op.resource target.toList)

end Operation

end ObjectStore
