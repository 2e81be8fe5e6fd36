/-!
Entries under distinct keys, as lists of pairs. A new entry goes to the end or,
where entries are kept in the order of their keys, to its place; an entry whose
key is there already takes the place of the old one.
-/

namespace RecordQuery.Entries

variable {β : Type}

def get? (key : String) : List (String × β) → Option β
  | [] => none
  | (k, value) :: rest => if k = key then some value else get? key rest

/-- The entries with a value put under a key; a new key goes to the end. -/
def put (key : String) (value : β) : List (String × β) → List (String × β)
  | [] => [(key, value)]
  | (k, old) :: rest =>
    if k = key then (key, value) :: rest else (k, old) :: put key value rest

/-- The sorted entries with a value put under a key; a new key goes to its place
by code points. -/
def putSorted (key : String) (value : β) : List (String × β) → List (String × β)
  | [] => [(key, value)]
  | (k, old) :: rest =>
    if k = key then (key, value) :: rest
    else if key < k then (key, value) :: (k, old) :: rest
    else (k, old) :: putSorted key value rest

def keys (entries : List (String × β)) : List String :=
  entries.map (·.1)

def ofList (entries : List (String × β)) : List (String × β) :=
  entries.foldl (fun acc (key, value) => put key value acc) []

/-- The entries put one after another, in the order of their keys. -/
def sorted (entries : List (String × β)) : List (String × β) :=
  entries.foldl (fun acc (key, value) => putSorted key value acc) []

end RecordQuery.Entries
