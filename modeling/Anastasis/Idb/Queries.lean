import Anastasis.Library.SortedMap
import Mathlib.Algebra.GroupWithZero.Nat

/-! Reading records in the order of their keys, as `getRecords` of the in-memory
backend and the cursors, stores and indexes above it do. -/

set_option autoImplicit false

namespace Anastasis.Idb

open Library

/-- What a call of the backend throws; `doesNotReturn` stands for a loop without end. -/
inductive BackendError where
  | error (message : String)
  | typeError
  | dataError
  | constraintError
  | doesNotReturn
deriving DecidableEq, Repr

inductive IDBCursorDirection where
  | next
  | prev
  | nextunique
  | prevunique
deriving DecidableEq, Repr

def IDBCursorDirection.forward : IDBCursorDirection → Bool
  | .next | .nextunique => true
  | .prev | .prevunique => false

def IDBCursorDirection.unique : IDBCursorDirection → Bool
  | .nextunique | .prevunique => true
  | .next | .prev => false

inductive ResultLevel where
  | onlyCount
  | onlyKeys
  | full
deriving DecidableEq, Repr

variable {Key Value : Type} [LinearOrder Key]

def compareKeys (first second : Key) : Ordering := compare first second

structure IDBKeyRange (Key : Type) where
  lower : Option Key
  upper : Option Key
  lowerOpen : Bool
  upperOpen : Bool
deriving DecidableEq, Repr

def IDBKeyRange.lowerIncludes (range : IDBKeyRange Key) (key : Key) : Bool :=
  match range.lower with
  | none => true
  | some lower =>
    let cmpResult := compareKeys lower key
    !(cmpResult == .gt || (cmpResult == .eq && range.lowerOpen))

def IDBKeyRange.upperIncludes (range : IDBKeyRange Key) (key : Key) : Bool :=
  match range.upper with
  | none => true
  | some upper =>
    let cmpResult := compareKeys upper key
    !(cmpResult == .lt || (cmpResult == .eq && range.upperOpen))

def IDBKeyRange.includes (range : IDBKeyRange Key) (key : Key) : Bool :=
  range.lowerIncludes key && range.upperIncludes key

structure RecordGetRequest (Key : Type) where
  direction : IDBCursorDirection
  range : Option (IDBKeyRange Key)
  lastIndexPosition : Option Key
  lastObjectStorePosition : Option Key
  advanceIndexKey : Option Key
  advancePrimaryKey : Option Key
  limit : Int
  resultLevel : ResultLevel

structure RecordGetResponse (Key Value : Type) where
  values : Option (List Value)
  indexKeys : Option (List Key)
  primaryKeys : Option (List Key)
  count : Nat
deriving DecidableEq, Repr

def RecordGetRequest.keyRange (request : RecordGetRequest Key) : IDBKeyRange Key :=
  request.range.getD ⟨none, none, true, true⟩

def RecordGetRequest.forward (request : RecordGetRequest Key) : Bool :=
  request.direction.forward

def RecordGetRequest.startBound (request : RecordGetRequest Key) : Option Key :=
  if request.forward then request.keyRange.lower else request.keyRange.upper

def RecordGetRequest.full (request : RecordGetRequest Key) (numResults : Nat) : Bool :=
  request.limit ≠ 0 && (numResults : Int) = request.limit

def nextStoreKey (forward : Bool) (data : SortedMap Key Value) (key : Key) : Option Key :=
  (if forward then data.nextHigherPair key else data.nextLowerPair key).map Prod.fst

def furthestKey (forward : Bool) : Option Key → Option Key → Option Key
  | none, key2 => key2
  | key1, none => key1
  | some key1, some key2 =>
    match compareKeys key1 key2 with
    | .eq => some key1
    | .gt => if forward then some key1 else some key2
    | .lt => if forward then some key2 else some key1

/-- Where a read of a store starts. The next key is a higher one in both
directions. -/
def storeStart (data : SortedMap Key Value) (request : RecordGetRequest Key) : Option Key :=
  let storePos := request.lastObjectStorePosition.or request.startBound
  match furthestKey request.forward request.advancePrimaryKey storePos with
  | some storePos =>
    if !data.contains storePos ||
        request.lastObjectStorePosition.any (compareKeys · storePos == .eq) then
      data.nextHigherKey storePos
    else some storePos
  | none => if request.forward then data.minKey else data.maxKey

def storeLoop (data : SortedMap Key Value) (request : RecordGetRequest Key) :
    Nat → Option Key → List Key → Option (List Key)
  | 0, _, _ => none
  | fuel + 1, storePos, found =>
    if request.full found.length then some found
    else
      match storePos with
      | none => some found
      | some storePos =>
        if !request.keyRange.includes storePos then some found
        else if !data.contains storePos then some found
        else
          storeLoop data request fuel (nextStoreKey request.forward data storePos)
            (found ++ [storePos])

def storeRead (data : SortedMap Key Value) (request : RecordGetRequest Key) :
    Except BackendError (List Key) :=
  if request.advanceIndexKey.isSome then .error (.error "unsupported request")
  else
    match storeLoop data request (data.entries.length + 1) (storeStart data request) [] with
    | none => .error .doesNotReturn
    | some found => .ok found

/-- The index key and the primary key a read starts from, advanced as requested.
An index key is only advanced to a higher one, in both directions. -/
def advanceIndex (request : RecordGetRequest Key) (indexPos primaryPos : Option Key) :
    Except BackendError (Option Key × Option Key) :=
  match request.advanceIndexKey with
  | none => .ok (indexPos, primaryPos)
  | some advanceIndexKey =>
    match indexPos with
    | none => .error .typeError
    | some position =>
      let compareResult := compareKeys advanceIndexKey position
      if (request.forward && compareResult == .gt) ||
          (!request.forward && compareResult == .gt) then
        .ok (some advanceIndexKey, primaryPos)
      else if compareResult == .eq then
        match request.advancePrimaryKey, primaryPos with
        | none, _ => .ok (indexPos, primaryPos)
        | some advancePrimaryKey, none => .ok (indexPos, some advancePrimaryKey)
        | some advancePrimaryKey, some reached =>
          let primCompareResult := compareKeys advancePrimaryKey reached
          if (request.forward && primCompareResult == .gt) ||
              (!request.forward && primCompareResult == .lt) then
            .ok (indexPos, some advancePrimaryKey)
          else .ok (indexPos, primaryPos)
      else .ok (indexPos, primaryPos)

/-- The entry a read of an index starts at, and the primary key it starts from. -/
def indexStart (data : SortedMap Key (List Key)) (request : RecordGetRequest Key) :
    Except BackendError (Option (Key × List Key) × Option Key) :=
  match advanceIndex request (request.lastIndexPosition.or request.startBound)
      request.lastObjectStorePosition with
  | .error thrown => .error thrown
  | .ok (indexPos, primaryPos) =>
    match indexPos.or (if request.forward then data.minKey else data.maxKey) with
    | none => .error (.error "invariant violated")
    | some indexPos =>
      match data.get? indexPos with
      | some primaryKeys => .ok (some (indexPos, primaryKeys), primaryPos)
      | none => .ok (data.nextPair request.forward indexPos, primaryPos)

def uniqueLoop (data : SortedMap Key (List Key)) (request : RecordGetRequest Key) :
    Nat → Option (Key × List Key) → List (Key × Key) → Option (List (Key × Key))
  | 0, _, _ => none
  | fuel + 1, indexEntry, found =>
    if request.full found.length then some found
    else
      match indexEntry with
      | none => some found
      | some (indexPos, primaryKeys) =>
        if !request.keyRange.includes indexPos then some found
        else
          let found :=
            if request.lastIndexPosition.all (compareKeys indexPos · != .eq) then
              found ++ primaryKeys.head?.toList.map (indexPos, ·)
            else found
          match data.nextPair request.forward indexPos with
          | none => some found
          | some next => uniqueLoop data request fuel (some next) found

/-- The primary keys of an index entry in the direction of the read. The read
keeps the ones it has not yet come to, where the code keeps a position. -/
def primaryKeysFrom (forward : Bool) (primaryKeys : List Key) : List Key :=
  if forward then primaryKeys else primaryKeys.reverse

def indexLoop (data : SortedMap Key (List Key)) (request : RecordGetRequest Key) :
    Nat → Option (Key × List Key) → List (Key × Key) → Option (List (Key × Key))
  | 0, _, _ => none
  | fuel + 1, indexEntry, found =>
    if request.full found.length then some found
    else
      match indexEntry with
      | none => some found
      | some (indexPos, remaining) =>
        if !request.keyRange.includes indexPos then some found
        else
          match remaining with
          | [] =>
            match data.nextPair request.forward indexPos with
            | none => some found
            | some (next, primaryKeys) =>
              indexLoop data request fuel
                (some (next, primaryKeysFrom request.forward primaryKeys)) found
          | primaryKey :: rest =>
            indexLoop data request fuel (some (indexPos, rest))
              (found ++ [(indexPos, primaryKey)])

/-- The primary keys left of the first entry: those past the last position and
not before the advanced one, when it is the entry of the last position. -/
def remainingPrimaryKeys (request : RecordGetRequest Key) (indexKey : Key)
    (primaryKeys : List Key) (primaryPos : Option Key) : Except BackendError (List Key) :=
  let ordered := primaryKeysFrom request.forward primaryKeys
  if request.lastIndexPosition.any (compareKeys indexKey · == .eq) then
    match request.lastObjectStorePosition with
    | none => .error .dataError
    | some last =>
      let past := ordered.dropWhile fun primaryKey =>
        let cmpResult := compareKeys last primaryKey
        !((request.forward && cmpResult == .lt) || (!request.forward && cmpResult == .gt))
      match primaryPos with
      | none => .ok past
      | some primaryPos =>
        .ok <| past.dropWhile fun primaryKey =>
          let cmpResult := compareKeys primaryPos primaryKey
          !((request.forward && cmpResult != .gt) || (!request.forward && cmpResult != .lt))
  else .ok ordered

def indexRounds (data : SortedMap Key (List Key)) : Nat :=
  (data.entries.map fun entry => entry.2.length + 1).sum + 1

def indexRead (data : SortedMap Key (List Key)) (request : RecordGetRequest Key) :
    Except BackendError (List (Key × Key)) := do
  let (indexEntry, primaryPos) ← indexStart data request
  let found ←
    if request.direction.unique then
      pure (uniqueLoop data request (indexRounds data) indexEntry [])
    else
      match indexEntry with
      | none => pure (some [])
      | some (indexPos, primaryKeys) => do
          let remaining ← remainingPrimaryKeys request indexPos primaryKeys primaryPos
          pure (indexLoop data request (indexRounds data) (some (indexPos, remaining)) [])
  match found with
  | none => .error .doesNotReturn
  | some found => .ok found

def readValues (data : SortedMap Key Value) : List Key → Except BackendError (List Value)
  | [] => .ok []
  | primaryKey :: rest =>
    match data.get? primaryKey with
    | none => .error (.error "invariant violated during read")
    | some value =>
      match readValues data rest with
      | .error thrown => .error thrown
      | .ok values => .ok (value :: values)

def respond (data : SortedMap Key Value) (haveIndex : Bool) (level : ResultLevel)
    (found : List (Key × Key)) : Except BackendError (RecordGetResponse Key Value) :=
  let primaryKeys := found.map Prod.snd
  let keys : RecordGetResponse Key Value :=
    { values := none
      indexKeys := if haveIndex then some (found.map Prod.fst) else none
      primaryKeys := some primaryKeys
      count := found.length }
  match level with
  | .onlyCount => .ok { keys with indexKeys := none, primaryKeys := none }
  | .onlyKeys => .ok keys
  | .full =>
    match readValues data primaryKeys with
    | .error thrown => .error thrown
    | .ok values => .ok { keys with values := some values }

def getRecords (store : SortedMap Key Value) (index : Option (SortedMap Key (List Key)))
    (request : RecordGetRequest Key) : Except BackendError (RecordGetResponse Key Value) :=
  match index with
  | some data => do
      let found ← indexRead data request
      respond store true request.resultLevel found
  | none => do
      let found ← storeRead store request
      respond store false request.resultLevel (found.map fun key => (key, key))

end Anastasis.Idb
