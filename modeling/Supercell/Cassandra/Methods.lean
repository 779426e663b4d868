import Supercell.Cassandra.Types
import Supercell.Thrift.Connection

/-!
# Cassandra — the methods of the interface

The arguments of each method, what it returns, and the exceptions that it
declares. What a handler throws besides is reported with its text.
-/

namespace Supercell

namespace Cassandra

open Thrift

/-- What a handler throws: an exception of the interface, or another one with
its text. -/
inductive Raised
  | notFound (x : NotFoundException)
  | invalidRequest (x : InvalidRequestException)
  | unavailable (x : UnavailableException)
  | timedOut (x : TimedOutException)
  | authentication (x : AuthenticationException)
  | authorization (x : AuthorizationException)
  | other (what : Bytes)

/-! ## Declared exceptions -/

def nfe (p : Protocol) (id : Int16) : Throws p Raised where
  name := "nfe"
  id := id
  codec := (NotFoundException.record p).codec
  raise := .notFound
  catches
    | .notFound x => some x
    | _ => none
  raise_merge := by
    intro e b h
    cases e <;> cases h
    rfl

def ire (p : Protocol) (id : Int16) : Throws p Raised where
  name := "ire"
  id := id
  codec := (InvalidRequestException.record p).codec
  raise := .invalidRequest
  catches
    | .invalidRequest x => some x
    | _ => none
  raise_merge := by
    intro e b h
    cases e <;> cases h
    rfl

def ue (p : Protocol) (id : Int16) : Throws p Raised where
  name := "ue"
  id := id
  codec := (UnavailableException.record p).codec
  raise := .unavailable
  catches
    | .unavailable x => some x
    | _ => none
  raise_merge := by
    intro e b h
    cases e <;> cases h
    rfl

def te (p : Protocol) (id : Int16) : Throws p Raised where
  name := "te"
  id := id
  codec := (TimedOutException.record p).codec
  raise := .timedOut
  catches
    | .timedOut x => some x
    | _ => none
  raise_merge := by
    intro e b h
    cases e <;> cases h
    rfl

def authnx (p : Protocol) (id : Int16) : Throws p Raised where
  name := "authnx"
  id := id
  codec := (AuthenticationException.record p).codec
  raise := .authentication
  catches
    | .authentication x => some x
    | _ => none
  raise_merge := by
    intro e b h
    cases e <;> cases h
    rfl

def authzx (p : Protocol) (id : Int16) : Throws p Raised where
  name := "authzx"
  id := id
  codec := (AuthorizationException.record p).codec
  raise := .authorization
  catches
    | .authorization x => some x
    | _ => none
  raise_merge := by
    intro e b h
    cases e <;> cases h
    rfl

/-! ## Methods -/

def ONE : ConsistencyLevel := 1

/-- The consistency level among the arguments. -/
def level (p : Protocol) (id : Int16) : Member p :=
  .always true "consistency_level" id (.i32Or p ONE)

def loginArgs (p : Protocol) : Members p :=
  .cons (.always true "auth_request" 1 (AuthenticationRequest.record p).codec) .nil

def login (p : Protocol) : Method p Raised where
  Ret := Unit
  name := "login"
  resultName := "Cassandra_login_result"
  args := .struct "Cassandra_login_pargs" (loginArgs p) nodup_one
  success := none
  throws := [authnx p 1, authzx p 2]
  ids_nodup := (by decide : ([0, 1, 2] : List Int16).Nodup)
  name_fits := by decide

def setKeyspaceArgs (p : Protocol) : Members p :=
  .cons (.always true "keyspace" 1 (.string p)) .nil

def setKeyspace (p : Protocol) : Method p Raised where
  Ret := Unit
  name := "set_keyspace"
  resultName := "Cassandra_set_keyspace_result"
  args := .struct "Cassandra_set_keyspace_pargs" (setKeyspaceArgs p) nodup_one
  success := none
  throws := [ire p 1]
  ids_nodup := (by decide : ([0, 1] : List Int16).Nodup)
  name_fits := by decide

def getArgs (p : Protocol) : Members p :=
  .cons (.always true "key" 1 (.binary p)) <|
  .cons (.always true "column_path" 2 (ColumnPath.record p).codec) <|
  .cons (level p 3) .nil

def get (p : Protocol) : Method p Raised where
  name := "get"
  resultName := "Cassandra_get_result"
  args := .struct "Cassandra_get_pargs" (getArgs p)
    nodup_three
  success := some (ColumnOrSuperColumn.record p).codec
  throws := [ire p 1, nfe p 2, ue p 3, te p 4]
  ids_nodup := (by decide : ([0, 1, 2, 3, 4] : List Int16).Nodup)
  name_fits := by decide

def getSliceArgs (p : Protocol) : Members p :=
  .cons (.always true "key" 1 (.binary p)) <|
  .cons (.always true "column_parent" 2 (ColumnParent.record p).codec) <|
  .cons (.always true "predicate" 3 (SlicePredicate.record p).codec) <|
  .cons (level p 4) .nil

def getSlice (p : Protocol) : Method p Raised where
  name := "get_slice"
  resultName := "Cassandra_get_slice_result"
  args := .struct "Cassandra_get_slice_pargs" (getSliceArgs p)
    nodup_four
  success := some (ColumnOrSuperColumn.record p).codec.list
  throws := [ire p 1, ue p 2, te p 3]
  ids_nodup := (by decide : ([0, 1, 2, 3] : List Int16).Nodup)
  name_fits := by decide

def getCountArgs (p : Protocol) : Members p :=
  .cons (.always true "key" 1 (.binary p)) <|
  .cons (.always true "column_parent" 2 (ColumnParent.record p).codec) <|
  .cons (.always true "predicate" 3 (SlicePredicate.record p).codec) <|
  .cons (level p 4) .nil

def getCount (p : Protocol) : Method p Raised where
  name := "get_count"
  resultName := "Cassandra_get_count_result"
  args := .struct "Cassandra_get_count_pargs" (getCountArgs p)
    nodup_four
  success := some (Codec.i32 p)
  throws := [ire p 1, ue p 2, te p 3]
  ids_nodup := (by decide : ([0, 1, 2, 3] : List Int16).Nodup)
  name_fits := by decide

def multigetSliceArgs (p : Protocol) : Members p :=
  .cons (.always true "keys" 1 (Codec.binary p).list) <|
  .cons (.always true "column_parent" 2 (ColumnParent.record p).codec) <|
  .cons (.always true "predicate" 3 (SlicePredicate.record p).codec) <|
  .cons (level p 4) .nil

def multigetSlice (p : Protocol) : Method p Raised where
  name := "multiget_slice"
  resultName := "Cassandra_multiget_slice_result"
  args := .struct "Cassandra_multiget_slice_pargs" (multigetSliceArgs p)
    nodup_four
  success := some (.map (.binary p) (ColumnOrSuperColumn.record p).codec.list
    (Codec.merge_binary p))
  throws := [ire p 1, ue p 2, te p 3]
  ids_nodup := (by decide : ([0, 1, 2, 3] : List Int16).Nodup)
  name_fits := by decide

def multigetCountArgs (p : Protocol) : Members p :=
  .cons (.always true "keys" 1 (Codec.binary p).list) <|
  .cons (.always true "column_parent" 2 (ColumnParent.record p).codec) <|
  .cons (.always true "predicate" 3 (SlicePredicate.record p).codec) <|
  .cons (level p 4) .nil

def multigetCount (p : Protocol) : Method p Raised where
  name := "multiget_count"
  resultName := "Cassandra_multiget_count_result"
  args := .struct "Cassandra_multiget_count_pargs" (multigetCountArgs p)
    nodup_four
  success := some (.map (.binary p) (.i32 p) (Codec.merge_binary p))
  throws := [ire p 1, ue p 2, te p 3]
  ids_nodup := (by decide : ([0, 1, 2, 3] : List Int16).Nodup)
  name_fits := by decide

def getRangeSlicesArgs (p : Protocol) : Members p :=
  .cons (.always true "column_parent" 1 (ColumnParent.record p).codec) <|
  .cons (.always true "predicate" 2 (SlicePredicate.record p).codec) <|
  .cons (.always true "range" 3 (KeyRange.record p).codec) <|
  .cons (level p 4) .nil

def getRangeSlices (p : Protocol) : Method p Raised where
  name := "get_range_slices"
  resultName := "Cassandra_get_range_slices_result"
  args := .struct "Cassandra_get_range_slices_pargs" (getRangeSlicesArgs p)
    nodup_four
  success := some (KeySlice.record p).codec.list
  throws := [ire p 1, ue p 2, te p 3]
  ids_nodup := (by decide : ([0, 1, 2, 3] : List Int16).Nodup)
  name_fits := by decide

def getIndexedSlicesArgs (p : Protocol) : Members p :=
  .cons (.always true "column_parent" 1 (ColumnParent.record p).codec) <|
  .cons (.always true "index_clause" 2 (IndexClause.record p).codec) <|
  .cons (.always true "column_predicate" 3 (SlicePredicate.record p).codec) <|
  .cons (level p 4) .nil

def getIndexedSlices (p : Protocol) : Method p Raised where
  name := "get_indexed_slices"
  resultName := "Cassandra_get_indexed_slices_result"
  args := .struct "Cassandra_get_indexed_slices_pargs" (getIndexedSlicesArgs p)
    nodup_four
  success := some (KeySlice.record p).codec.list
  throws := [ire p 1, ue p 2, te p 3]
  ids_nodup := (by decide : ([0, 1, 2, 3] : List Int16).Nodup)
  name_fits := by decide

def insertArgs (p : Protocol) : Members p :=
  .cons (.always true "key" 1 (.binary p)) <|
  .cons (.always true "column_parent" 2 (ColumnParent.record p).codec) <|
  .cons (.always true "column" 3 (Column.record p).codec) <|
  .cons (level p 4) .nil

def insert (p : Protocol) : Method p Raised where
  Ret := Unit
  name := "insert"
  resultName := "Cassandra_insert_result"
  args := .struct "Cassandra_insert_pargs" (insertArgs p)
    nodup_four
  success := none
  throws := [ire p 1, ue p 2, te p 3]
  ids_nodup := (by decide : ([0, 1, 2, 3] : List Int16).Nodup)
  name_fits := by decide

def removeArgs (p : Protocol) : Members p :=
  .cons (.always true "key" 1 (.binary p)) <|
  .cons (.always true "column_path" 2 (ColumnPath.record p).codec) <|
  .cons (.always true "timestamp" 3 (.i64 p)) <|
  .cons (.always false "consistency_level" 4 (.i32Or p ONE)) .nil

def remove (p : Protocol) : Method p Raised where
  Ret := Unit
  name := "remove"
  resultName := "Cassandra_remove_result"
  args := .struct "Cassandra_remove_pargs" (removeArgs p)
    nodup_four
  success := none
  throws := [ire p 1, ue p 2, te p 3]
  ids_nodup := (by decide : ([0, 1, 2, 3] : List Int16).Nodup)
  name_fits := by decide

def batchMutateArgs (p : Protocol) : Members p :=
  .cons (.always true "mutation_map" 1 (.map (.binary p)
      (.map (.string p) (Mutation.record p).codec.list (Codec.merge_string p))
      (Codec.merge_binary p))) <|
  .cons (level p 2) .nil

def batchMutate (p : Protocol) : Method p Raised where
  Ret := Unit
  name := "batch_mutate"
  resultName := "Cassandra_batch_mutate_result"
  args := .struct "Cassandra_batch_mutate_pargs" (batchMutateArgs p)
    nodup_two
  success := none
  throws := [ire p 1, ue p 2, te p 3]
  ids_nodup := (by decide : ([0, 1, 2, 3] : List Int16).Nodup)
  name_fits := by decide

def truncateArgs (p : Protocol) : Members p :=
  .cons (.always true "cfname" 1 (.string p)) .nil

def truncate (p : Protocol) : Method p Raised where
  Ret := Unit
  name := "truncate"
  resultName := "Cassandra_truncate_result"
  args := .struct "Cassandra_truncate_pargs" (truncateArgs p) nodup_one
  success := none
  throws := [ire p 1, ue p 2]
  ids_nodup := (by decide : ([0, 1, 2] : List Int16).Nodup)
  name_fits := by decide

def describeSchemaVersionsArgs (p : Protocol) : Members p :=
  .nil

def describeSchemaVersions (p : Protocol) : Method p Raised where
  name := "describe_schema_versions"
  resultName := "Cassandra_describe_schema_versions_result"
  args := .struct "Cassandra_describe_schema_versions_pargs" (describeSchemaVersionsArgs p) List.nodup_nil
  success := some (.map (.string p) (Codec.string p).list (Codec.merge_string p))
  throws := [ire p 1]
  ids_nodup := (by decide : ([0, 1] : List Int16).Nodup)
  name_fits := by decide

def describeKeyspacesArgs (p : Protocol) : Members p :=
  .nil

def describeKeyspaces (p : Protocol) : Method p Raised where
  name := "describe_keyspaces"
  resultName := "Cassandra_describe_keyspaces_result"
  args := .struct "Cassandra_describe_keyspaces_pargs" (describeKeyspacesArgs p) List.nodup_nil
  success := some (KsDef.record p).codec.list
  throws := [ire p 1]
  ids_nodup := (by decide : ([0, 1] : List Int16).Nodup)
  name_fits := by decide

def describeClusterNameArgs (p : Protocol) : Members p :=
  .nil

def describeClusterName (p : Protocol) : Method p Raised where
  name := "describe_cluster_name"
  resultName := "Cassandra_describe_cluster_name_result"
  args := .struct "Cassandra_describe_cluster_name_pargs" (describeClusterNameArgs p) List.nodup_nil
  success := some (Codec.string p)
  throws := []
  ids_nodup := List.nodup_singleton 0
  name_fits := by decide

def describeVersionArgs (p : Protocol) : Members p :=
  .nil

def describeVersion (p : Protocol) : Method p Raised where
  name := "describe_version"
  resultName := "Cassandra_describe_version_result"
  args := .struct "Cassandra_describe_version_pargs" (describeVersionArgs p) List.nodup_nil
  success := some (Codec.string p)
  throws := []
  ids_nodup := List.nodup_singleton 0
  name_fits := by decide

def describeRingArgs (p : Protocol) : Members p :=
  .cons (.always true "keyspace" 1 (.string p)) .nil

def describeRing (p : Protocol) : Method p Raised where
  name := "describe_ring"
  resultName := "Cassandra_describe_ring_result"
  args := .struct "Cassandra_describe_ring_pargs" (describeRingArgs p) nodup_one
  success := some (TokenRange.record p).codec.list
  throws := [ire p 1]
  ids_nodup := (by decide : ([0, 1] : List Int16).Nodup)
  name_fits := by decide

def describePartitionerArgs (p : Protocol) : Members p :=
  .nil

def describePartitioner (p : Protocol) : Method p Raised where
  name := "describe_partitioner"
  resultName := "Cassandra_describe_partitioner_result"
  args := .struct "Cassandra_describe_partitioner_pargs" (describePartitionerArgs p) List.nodup_nil
  success := some (Codec.string p)
  throws := []
  ids_nodup := List.nodup_singleton 0
  name_fits := by decide

def describeSnitchArgs (p : Protocol) : Members p :=
  .nil

def describeSnitch (p : Protocol) : Method p Raised where
  name := "describe_snitch"
  resultName := "Cassandra_describe_snitch_result"
  args := .struct "Cassandra_describe_snitch_pargs" (describeSnitchArgs p) List.nodup_nil
  success := some (Codec.string p)
  throws := []
  ids_nodup := List.nodup_singleton 0
  name_fits := by decide

def describeKeyspaceArgs (p : Protocol) : Members p :=
  .cons (.always true "keyspace" 1 (.string p)) .nil

def describeKeyspace (p : Protocol) : Method p Raised where
  name := "describe_keyspace"
  resultName := "Cassandra_describe_keyspace_result"
  args := .struct "Cassandra_describe_keyspace_pargs" (describeKeyspaceArgs p) nodup_one
  success := some (KsDef.record p).codec
  throws := [nfe p 1, ire p 2]
  ids_nodup := (by decide : ([0, 1, 2] : List Int16).Nodup)
  name_fits := by decide

def describeSplitsArgs (p : Protocol) : Members p :=
  .cons (.always true "cfName" 1 (.string p)) <|
  .cons (.always true "start_token" 2 (.string p)) <|
  .cons (.always true "end_token" 3 (.string p)) <|
  .cons (.always true "keys_per_split" 4 (.i32 p)) .nil

def describeSplits (p : Protocol) : Method p Raised where
  name := "describe_splits"
  resultName := "Cassandra_describe_splits_result"
  args := .struct "Cassandra_describe_splits_pargs" (describeSplitsArgs p)
    nodup_four
  success := some (Codec.string p).list
  throws := []
  ids_nodup := List.nodup_singleton 0
  name_fits := by decide

def systemAddColumnFamilyArgs (p : Protocol) : Members p :=
  .cons (.always true "cf_def" 1 (CfDef.record p).codec) .nil

def systemAddColumnFamily (p : Protocol) : Method p Raised where
  name := "system_add_column_family"
  resultName := "Cassandra_system_add_column_family_result"
  args := .struct "Cassandra_system_add_column_family_pargs" (systemAddColumnFamilyArgs p)
    nodup_one
  success := some (Codec.string p)
  throws := [ire p 1]
  ids_nodup := (by decide : ([0, 1] : List Int16).Nodup)
  name_fits := by decide

def systemDropColumnFamilyArgs (p : Protocol) : Members p :=
  .cons (.always true "column_family" 1 (.string p)) .nil

def systemDropColumnFamily (p : Protocol) : Method p Raised where
  name := "system_drop_column_family"
  resultName := "Cassandra_system_drop_column_family_result"
  args := .struct "Cassandra_system_drop_column_family_pargs" (systemDropColumnFamilyArgs p)
    nodup_one
  success := some (Codec.string p)
  throws := [ire p 1]
  ids_nodup := (by decide : ([0, 1] : List Int16).Nodup)
  name_fits := by decide

def systemAddKeyspaceArgs (p : Protocol) : Members p :=
  .cons (.always true "ks_def" 1 (KsDef.record p).codec) .nil

def systemAddKeyspace (p : Protocol) : Method p Raised where
  name := "system_add_keyspace"
  resultName := "Cassandra_system_add_keyspace_result"
  args := .struct "Cassandra_system_add_keyspace_pargs" (systemAddKeyspaceArgs p)
    nodup_one
  success := some (Codec.string p)
  throws := [ire p 1]
  ids_nodup := (by decide : ([0, 1] : List Int16).Nodup)
  name_fits := by decide

def systemDropKeyspaceArgs (p : Protocol) : Members p :=
  .cons (.always true "keyspace" 1 (.string p)) .nil

def systemDropKeyspace (p : Protocol) : Method p Raised where
  name := "system_drop_keyspace"
  resultName := "Cassandra_system_drop_keyspace_result"
  args := .struct "Cassandra_system_drop_keyspace_pargs" (systemDropKeyspaceArgs p)
    nodup_one
  success := some (Codec.string p)
  throws := [ire p 1]
  ids_nodup := (by decide : ([0, 1] : List Int16).Nodup)
  name_fits := by decide

def systemUpdateKeyspaceArgs (p : Protocol) : Members p :=
  .cons (.always true "ks_def" 1 (KsDef.record p).codec) .nil

def systemUpdateKeyspace (p : Protocol) : Method p Raised where
  name := "system_update_keyspace"
  resultName := "Cassandra_system_update_keyspace_result"
  args := .struct "Cassandra_system_update_keyspace_pargs" (systemUpdateKeyspaceArgs p)
    nodup_one
  success := some (Codec.string p)
  throws := [ire p 1]
  ids_nodup := (by decide : ([0, 1] : List Int16).Nodup)
  name_fits := by decide

def systemUpdateColumnFamilyArgs (p : Protocol) : Members p :=
  .cons (.always true "cf_def" 1 (CfDef.record p).codec) .nil

def systemUpdateColumnFamily (p : Protocol) : Method p Raised where
  name := "system_update_column_family"
  resultName := "Cassandra_system_update_column_family_result"
  args := .struct "Cassandra_system_update_column_family_pargs" (systemUpdateColumnFamilyArgs p)
    nodup_one
  success := some (Codec.string p)
  throws := [ire p 1]
  ids_nodup := (by decide : ([0, 1] : List Int16).Nodup)
  name_fits := by decide

/-! ## The service -/

inductive Name
  | login | setKeyspace | get | getSlice | getCount | multigetSlice | multigetCount
  | getRangeSlices | getIndexedSlices | insert | remove | batchMutate | truncate
  | describeSchemaVersions | describeKeyspaces | describeClusterName | describeVersion
  | describeRing | describePartitioner | describeSnitch | describeKeyspace | describeSplits
  | systemAddColumnFamily | systemDropColumnFamily | systemAddKeyspace | systemDropKeyspace
  | systemUpdateKeyspace | systemUpdateColumnFamily
  deriving DecidableEq, Repr

namespace Name

/-- The name of the method on the wire. -/
def text : Name → String
  | login => "login"
  | setKeyspace => "set_keyspace"
  | get => "get"
  | getSlice => "get_slice"
  | getCount => "get_count"
  | multigetSlice => "multiget_slice"
  | multigetCount => "multiget_count"
  | getRangeSlices => "get_range_slices"
  | getIndexedSlices => "get_indexed_slices"
  | insert => "insert"
  | remove => "remove"
  | batchMutate => "batch_mutate"
  | truncate => "truncate"
  | describeSchemaVersions => "describe_schema_versions"
  | describeKeyspaces => "describe_keyspaces"
  | describeClusterName => "describe_cluster_name"
  | describeVersion => "describe_version"
  | describeRing => "describe_ring"
  | describePartitioner => "describe_partitioner"
  | describeSnitch => "describe_snitch"
  | describeKeyspace => "describe_keyspace"
  | describeSplits => "describe_splits"
  | systemAddColumnFamily => "system_add_column_family"
  | systemDropColumnFamily => "system_drop_column_family"
  | systemAddKeyspace => "system_add_keyspace"
  | systemDropKeyspace => "system_drop_keyspace"
  | systemUpdateKeyspace => "system_update_keyspace"
  | systemUpdateColumnFamily => "system_update_column_family"

def method (p : Protocol) : Name → Method p Raised
  | login => Cassandra.login p
  | setKeyspace => Cassandra.setKeyspace p
  | get => Cassandra.get p
  | getSlice => Cassandra.getSlice p
  | getCount => Cassandra.getCount p
  | multigetSlice => Cassandra.multigetSlice p
  | multigetCount => Cassandra.multigetCount p
  | getRangeSlices => Cassandra.getRangeSlices p
  | getIndexedSlices => Cassandra.getIndexedSlices p
  | insert => Cassandra.insert p
  | remove => Cassandra.remove p
  | batchMutate => Cassandra.batchMutate p
  | truncate => Cassandra.truncate p
  | describeSchemaVersions => Cassandra.describeSchemaVersions p
  | describeKeyspaces => Cassandra.describeKeyspaces p
  | describeClusterName => Cassandra.describeClusterName p
  | describeVersion => Cassandra.describeVersion p
  | describeRing => Cassandra.describeRing p
  | describePartitioner => Cassandra.describePartitioner p
  | describeSnitch => Cassandra.describeSnitch p
  | describeKeyspace => Cassandra.describeKeyspace p
  | describeSplits => Cassandra.describeSplits p
  | systemAddColumnFamily => Cassandra.systemAddColumnFamily p
  | systemDropColumnFamily => Cassandra.systemDropColumnFamily p
  | systemAddKeyspace => Cassandra.systemAddKeyspace p
  | systemDropKeyspace => Cassandra.systemDropKeyspace p
  | systemUpdateKeyspace => Cassandra.systemUpdateKeyspace p
  | systemUpdateColumnFamily => Cassandra.systemUpdateColumnFamily p

def all : List Name :=
  [ login, setKeyspace, get, getSlice, getCount, multigetSlice, multigetCount, getRangeSlices,
    getIndexedSlices, insert, remove, batchMutate, truncate, describeSchemaVersions,
    describeKeyspaces, describeClusterName, describeVersion, describeRing, describePartitioner,
    describeSnitch, describeKeyspace, describeSplits, systemAddColumnFamily,
    systemDropColumnFamily, systemAddKeyspace, systemDropKeyspace, systemUpdateKeyspace,
    systemUpdateColumnFamily]

theorem mem_all (m : Name) : m ∈ all := by
  cases m <;> decide

/-- `processMap_`, which the constructor of the processor fills. -/
def processMap : List (Bytes × Name) := all.map fun m => (ascii m.text, m)

def find (fname : Bytes) : Option Name := (processMap.find? fun e => e.1 = fname).map Prod.snd

theorem find_text (m : Name) : find (ascii m.text) = some m := by
  have hall : ∀ m ∈ all, find (ascii m.text) = some m := by decide +kernel
  exact hall m m.mem_all

theorem name_method (p : Protocol) (m : Name) : (m.method p).name = m.text := by
  cases m <;> rfl

end Name

/-- **The service** that client and processor share. -/
def service (p : Protocol) : Service p Raised where
  Name := Name
  method := Name.method p
  find := Name.find
  find_name m := by rw [m.name_method, m.find_text]

end Cassandra

end Supercell
