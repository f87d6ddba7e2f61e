import Anastasis.Idb.IndexAnswers

/-! Cursors, and the queries of object stores and indexes, over `getRecords`. -/

set_option autoImplicit false

namespace Anastasis.Idb

open Library

variable {Key Value : Type} [LinearOrder Key]

structure BridgeIDBCursor (Key : Type) where
  direction : IDBCursorDirection
  range : Option (IDBKeyRange Key)
  keyOnly : Bool
  indexPosition : Option Key
  objectStorePosition : Option Key

def BridgeIDBCursor.recordGetRequest (cursor : BridgeIDBCursor Key) (isIndex : Bool)
    (key primaryKey : Option Key) : RecordGetRequest Key :=
  { direction := cursor.direction
    range := cursor.range
    lastIndexPosition := cursor.indexPosition
    lastObjectStorePosition := cursor.objectStorePosition
    advanceIndexKey := if isIndex then key else none
    advancePrimaryKey := if isIndex then primaryKey else key
    limit := 1
    resultLevel := if cursor.keyOnly then .onlyKeys else .full }

/-- The record a cursor shows: its key, its primary key and, unless the cursor
is for keys only, its value. -/
structure CursorRecord (Key Value : Type) where
  key : Key
  primaryKey : Key
  value : Option Value
deriving DecidableEq, Repr

/-- What `_iterate` makes of a response. -/
def BridgeIDBCursor.accept (cursor : BridgeIDBCursor Key) (isIndex : Bool)
    (response : RecordGetResponse Key Value) :
    Except BackendError (BridgeIDBCursor Key × Option (CursorRecord Key Value)) :=
  if response.count = 0 then .ok (cursor, none)
  else if response.count ≠ 1 then .error (.error "invariant failed")
  else
    match (if isIndex then response.indexKeys else response.primaryKeys), response.primaryKeys with
    | some (key :: _), some (primaryKey :: _) =>
      match cursor.keyOnly, response.values with
      | true, _ => .ok (moved key primaryKey, some ⟨key, primaryKey, none⟩)
      | false, some values => .ok (moved key primaryKey, some ⟨key, primaryKey, values.head?⟩)
      | false, none => .error .typeError
    | _, _ => .error .typeError
where
  moved (key primaryKey : Key) : BridgeIDBCursor Key :=
    { cursor with
      objectStorePosition := some primaryKey
      indexPosition := if isIndex then some key else cursor.indexPosition }

def BridgeIDBCursor.iterate (view : View Key Value) (cursor : BridgeIDBCursor Key)
    (key primaryKey : Option Key) :
    Except BackendError (BridgeIDBCursor Key × Option (CursorRecord Key Value)) :=
  match getRecords view.store view.index
      (cursor.recordGetRequest view.index.isSome key primaryKey) with
  | .error thrown => .error thrown
  | .ok response => cursor.accept view.index.isSome response

def BridgeIDBCursor.records (view : View Key Value) :
    Nat → BridgeIDBCursor Key → Except BackendError (List (CursorRecord Key Value))
  | 0, _ => .error .doesNotReturn
  | calls + 1, cursor =>
    match cursor.iterate view none none with
    | .error thrown => .error thrown
    | .ok (_, none) => .ok []
    | .ok (moved, some record) =>
      match BridgeIDBCursor.records view calls moved with
      | .error thrown => .error thrown
      | .ok rest => .ok (record :: rest)

def openCursor (direction : IDBCursorDirection) (range : Option (IDBKeyRange Key))
    (keyOnly : Bool) : BridgeIDBCursor Key :=
  ⟨direction, range, keyOnly, none, none⟩

section Methods

variable (view : View Key Value) (query : Option (IDBKeyRange Key))

def methodRequest (limit : Int) (resultLevel : ResultLevel) : RecordGetRequest Key :=
  { direction := .next
    range := query
    lastIndexPosition := none
    lastObjectStorePosition := none
    advanceIndexKey := none
    advancePrimaryKey := none
    limit := limit
    resultLevel := resultLevel }

def respondTo (limit : Int) (resultLevel : ResultLevel) :
    Except BackendError (RecordGetResponse Key Value) :=
  getRecords view.store view.index (methodRequest query limit resultLevel)

def singleResult {Item : Type} (isIndex : Bool) (items : Option (List Item)) :
    Except BackendError (Option Item) :=
  match items with
  | none => .error (.error "invariant violated")
  | some items =>
    if !isIndex && items.length ≠ 1 then .error (.error "invariant violated")
    else .ok items.head?

def queryGet : Except BackendError (Option Value) := do
  let result ← respondTo view query 1 .full
  if result.count = 0 then pure none
  else singleResult view.index.isSome result.values

def queryGetKey : Except BackendError (Option Key) := do
  let result ← respondTo view query 1 .onlyKeys
  if result.count = 0 then pure none
  else singleResult view.index.isSome result.primaryKeys

def allResults {Item : Type} (items : Option (List Item)) : Except BackendError (List Item) :=
  match items with
  | none => .error (.error "invariant violated")
  | some items => .ok items

def queryGetAll (count : Option Int) : Except BackendError (List Value) := do
  let result ← respondTo view query (count.getD (-1)) .full
  allResults result.values

def queryGetAllKeys (count : Option Int) : Except BackendError (List Key) := do
  let result ← respondTo view query (count.getD (-1)) .onlyKeys
  allResults result.primaryKeys

/-- `count` of a store asks for all records, `count` of an index for one. -/
def queryCount : Except BackendError Nat := do
  let result ← respondTo view query (if view.index.isSome then 1 else -1) .onlyCount
  pure result.count

end Methods

def View.values (view : View Key Value) (records : List (Key × Key)) : List Value :=
  records.filterMap fun record => view.store.get? record.2

/-- The methods of a store or an index agree with the enumeration of the range. -/
structure View.MethodsAgree (view : View Key Value) (query : Option (IDBKeyRange Key)) :
    Prop where
  get : queryGet view query =
    .ok (view.values (view.enumeration .next (fullRange query))).head?
  getKey : queryGetKey view query =
    .ok ((view.enumeration .next (fullRange query)).head?.map Prod.snd)
  getAll : ∀ count, queryGetAll view query count =
    .ok (view.values (limited (count.getD (-1)) (view.enumeration .next (fullRange query))))
  getAllKeys : ∀ count, queryGetAllKeys view query count =
    .ok ((limited (count.getD (-1)) (view.enumeration .next (fullRange query))).map Prod.snd)
  count : queryCount view query = .ok (view.enumeration .next (fullRange query)).length

def View.Meets (view : View Key Value) (direction : IDBCursorDirection)
    (range : Option (IDBKeyRange Key)) (position : CursorPosition Key) : Prop :=
  match view.index with
  | none => StoreMeets view direction (fullRange range) position
  | some data => IndexMeets view data direction (fullRange range) position

end Anastasis.Idb
