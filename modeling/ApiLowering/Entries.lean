/-!
Keyed lists in which every key occurs once: look-up, insertion at the first occurrence of a key,
and insertion in ascending order.
-/

set_option autoImplicit false

namespace ApiLowering

abbrev Entries (α : Type) : Type := List (String × α)

namespace Entries

variable {α β : Type}

def get? (key : String) : Entries α → Option α
  | [] => none
  | (k, v) :: rest => if k = key then some v else get? key rest

def contains (key : String) (entries : Entries α) : Bool := (get? key entries).isSome

def keys (entries : Entries α) : List String := entries.map Prod.fst

def values (entries : Entries α) : List α := entries.map Prod.snd

-- A key that is present keeps its place and gets the new value; a new key goes to the end.
def put (key : String) (value : α) : Entries α → Entries α
  | [] => [(key, value)]
  | (k, v) :: rest => if k = key then (key, value) :: rest else (k, v) :: put key value rest

-- Insertion into ascending keys; a key that is present gets the new value.
def putSorted (key : String) (value : α) : Entries α → Entries α
  | [] => [(key, value)]
  | (k, v) :: rest =>
    if k = key then (key, value) :: rest
    else if key < k then (key, value) :: (k, v) :: rest
    else (k, v) :: putSorted key value rest

-- Ascending keys; of several values under one key the last one stays.
def sort (entries : Entries α) : Entries α :=
  entries.foldl (fun sorted e => putSorted e.1 e.2 sorted) []

-- The first occurrence of each key with its last value.
def collect (entries : Entries α) : Entries α :=
  entries.foldl (fun seen e => put e.1 e.2 seen) []

def mapValues (f : α → β) (entries : Entries α) : Entries β := entries.map fun e => (e.1, f e.2)

-- The same keys with related values, in any order.
def agree (same : α → α → Bool) (a b : Entries α) : Bool :=
  a.length == b.length && a.all fun e => (get? e.1 b).any (same e.2)

end Entries

def insertSorted (s : String) : List String → List String
  | [] => [s]
  | t :: rest =>
    if s = t then t :: rest
    else if s < t then s :: t :: rest
    else t :: insertSorted s rest

def sortedSet (texts : List String) : List String :=
  texts.foldl (fun set s => insertSorted s set) []

end ApiLowering
