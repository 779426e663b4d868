import Supercell.Thrift.Binary
import Supercell.Thrift.Struct

/-!
# Cassandra — the classes of the interface

Each class reads and writes its members as the interface numbers them, some of
them required, the others with a flag for whether they are set. A `double` is
its bits here, and an enumeration its number: reading casts what arrives.
-/

namespace Supercell

namespace Cassandra

open Thrift

abbrev ConsistencyLevel := Int32

abbrev IndexOperator := Int32

abbrev IndexType := Int32

/-! ## Columns -/

structure Column where
  name : Bytes
  value : Bytes
  timestamp : Int64
  ttl : Optional Int32

def Column.record (p : Protocol) : Record p Column where
  name := "Column"
  members :=
    .cons (.always true "name" 1 (.binary p)) <|
    .cons (.always true "value" 2 (.binary p)) <|
    .cons (.always true "timestamp" 3 (.i64 p)) <|
    .cons (.optional "ttl" 4 (.i32 p)) .nil
  ids_nodup := nodup_four
  equiv := {
    toFun := fun (name, value, timestamp, ttl, ()) =>
      ⟨name, value, timestamp, ttl⟩
    invFun := fun a => (a.name, a.value, a.timestamp, a.ttl, ())
    left_inv _ := rfl
    right_inv _ := rfl }

structure SuperColumn where
  name : Bytes
  columns : List Column

def SuperColumn.record (p : Protocol) : Record p SuperColumn where
  name := "SuperColumn"
  members :=
    .cons (.always true "name" 1 (.binary p)) <|
    .cons (.always true "columns" 2 (Column.record p).codec.list) .nil
  ids_nodup := nodup_two
  equiv := {
    toFun := fun (name, columns, ()) =>
      ⟨name, columns⟩
    invFun := fun a => (a.name, a.columns, ())
    left_inv _ := rfl
    right_inv _ := rfl }

structure ColumnOrSuperColumn where
  column : Optional Column
  superColumn : Optional SuperColumn

def ColumnOrSuperColumn.record (p : Protocol) : Record p ColumnOrSuperColumn where
  name := "ColumnOrSuperColumn"
  members :=
    .cons (.optional "column" 1 (Column.record p).codec) <|
    .cons (.optional "super_column" 2 (SuperColumn.record p).codec) .nil
  ids_nodup := nodup_two
  equiv := {
    toFun := fun (column, superColumn, ()) =>
      ⟨column, superColumn⟩
    invFun := fun a => (a.column, a.superColumn, ())
    left_inv _ := rfl
    right_inv _ := rfl }

/-! ## Exceptions -/

structure NotFoundException

def NotFoundException.record (p : Protocol) : Record p NotFoundException where
  name := "NotFoundException"
  members := .nil
  ids_nodup := List.nodup_nil
  equiv := ⟨fun _ => ⟨⟩, fun _ => (), fun _ => rfl, fun _ => rfl⟩

structure InvalidRequestException where
  why : Bytes

def InvalidRequestException.record (p : Protocol) : Record p InvalidRequestException where
  name := "InvalidRequestException"
  members :=
    .cons (.always true "why" 1 (.string p)) .nil
  ids_nodup := nodup_one
  equiv := {
    toFun := fun (why, ()) =>
      ⟨why⟩
    invFun := fun a => (a.why, ())
    left_inv _ := rfl
    right_inv _ := rfl }

structure UnavailableException

def UnavailableException.record (p : Protocol) : Record p UnavailableException where
  name := "UnavailableException"
  members := .nil
  ids_nodup := List.nodup_nil
  equiv := ⟨fun _ => ⟨⟩, fun _ => (), fun _ => rfl, fun _ => rfl⟩

structure TimedOutException

def TimedOutException.record (p : Protocol) : Record p TimedOutException where
  name := "TimedOutException"
  members := .nil
  ids_nodup := List.nodup_nil
  equiv := ⟨fun _ => ⟨⟩, fun _ => (), fun _ => rfl, fun _ => rfl⟩

structure AuthenticationException where
  why : Bytes

def AuthenticationException.record (p : Protocol) : Record p AuthenticationException where
  name := "AuthenticationException"
  members :=
    .cons (.always true "why" 1 (.string p)) .nil
  ids_nodup := nodup_one
  equiv := {
    toFun := fun (why, ()) =>
      ⟨why⟩
    invFun := fun a => (a.why, ())
    left_inv _ := rfl
    right_inv _ := rfl }

structure AuthorizationException where
  why : Bytes

def AuthorizationException.record (p : Protocol) : Record p AuthorizationException where
  name := "AuthorizationException"
  members :=
    .cons (.always true "why" 1 (.string p)) .nil
  ids_nodup := nodup_one
  equiv := {
    toFun := fun (why, ()) =>
      ⟨why⟩
    invFun := fun a => (a.why, ())
    left_inv _ := rfl
    right_inv _ := rfl }

/-! ## What a query asks for -/

structure ColumnParent where
  columnFamily : Bytes
  superColumn : Optional Bytes

def ColumnParent.record (p : Protocol) : Record p ColumnParent where
  name := "ColumnParent"
  members :=
    .cons (.always true "column_family" 3 (.string p)) <|
    .cons (.optional "super_column" 4 (.binary p)) .nil
  ids_nodup := (by decide : ([3, 4] : List Int16).Nodup)
  equiv := {
    toFun := fun (columnFamily, superColumn, ()) =>
      ⟨columnFamily, superColumn⟩
    invFun := fun a => (a.columnFamily, a.superColumn, ())
    left_inv _ := rfl
    right_inv _ := rfl }

structure ColumnPath where
  columnFamily : Bytes
  superColumn : Optional Bytes
  column : Optional Bytes

def ColumnPath.record (p : Protocol) : Record p ColumnPath where
  name := "ColumnPath"
  members :=
    .cons (.always true "column_family" 3 (.string p)) <|
    .cons (.optional "super_column" 4 (.binary p)) <|
    .cons (.optional "column" 5 (.binary p)) .nil
  ids_nodup := (by decide : ([3, 4, 5] : List Int16).Nodup)
  equiv := {
    toFun := fun (columnFamily, superColumn, column, ()) =>
      ⟨columnFamily, superColumn, column⟩
    invFun := fun a => (a.columnFamily, a.superColumn, a.column, ())
    left_inv _ := rfl
    right_inv _ := rfl }

structure SliceRange where
  start : Bytes
  finish : Bytes
  reversed : Bool
  count : Int32

def SliceRange.record (p : Protocol) : Record p SliceRange where
  name := "SliceRange"
  members :=
    .cons (.always true "start" 1 (.binary p)) <|
    .cons (.always true "finish" 2 (.binary p)) <|
    .cons (.always true "reversed" 3 (.bool p)) <|
    .cons (.always true "count" 4 (.i32Or p 100)) .nil
  ids_nodup := nodup_four
  equiv := {
    toFun := fun (start, finish, reversed, count, ()) =>
      ⟨start, finish, reversed, count⟩
    invFun := fun a => (a.start, a.finish, a.reversed, a.count, ())
    left_inv _ := rfl
    right_inv _ := rfl }

structure SlicePredicate where
  columnNames : Optional (List Bytes)
  sliceRange : Optional SliceRange

def SlicePredicate.record (p : Protocol) : Record p SlicePredicate where
  name := "SlicePredicate"
  members :=
    .cons (.optional "column_names" 1 (Codec.binary p).list) <|
    .cons (.optional "slice_range" 2 (SliceRange.record p).codec) .nil
  ids_nodup := nodup_two
  equiv := {
    toFun := fun (columnNames, sliceRange, ()) =>
      ⟨columnNames, sliceRange⟩
    invFun := fun a => (a.columnNames, a.sliceRange, ())
    left_inv _ := rfl
    right_inv _ := rfl }

structure IndexExpression where
  columnName : Bytes
  op : IndexOperator
  value : Bytes

def IndexExpression.record (p : Protocol) : Record p IndexExpression where
  name := "IndexExpression"
  members :=
    .cons (.always true "column_name" 1 (.binary p)) <|
    .cons (.always true "op" 2 (.i32 p)) <|
    .cons (.always true "value" 3 (.binary p)) .nil
  ids_nodup := nodup_three
  equiv := {
    toFun := fun (columnName, op, value, ()) =>
      ⟨columnName, op, value⟩
    invFun := fun a => (a.columnName, a.op, a.value, ())
    left_inv _ := rfl
    right_inv _ := rfl }

structure IndexClause where
  expressions : List IndexExpression
  startKey : Bytes
  count : Int32

def IndexClause.record (p : Protocol) : Record p IndexClause where
  name := "IndexClause"
  members :=
    .cons (.always true "expressions" 1 (IndexExpression.record p).codec.list) <|
    .cons (.always true "start_key" 2 (.binary p)) <|
    .cons (.always true "count" 3 (.i32Or p 100)) .nil
  ids_nodup := nodup_three
  equiv := {
    toFun := fun (expressions, startKey, count, ()) =>
      ⟨expressions, startKey, count⟩
    invFun := fun a => (a.expressions, a.startKey, a.count, ())
    left_inv _ := rfl
    right_inv _ := rfl }

structure KeyRange where
  startKey : Optional Bytes
  endKey : Optional Bytes
  startToken : Optional Bytes
  endToken : Optional Bytes
  count : Int32

def KeyRange.record (p : Protocol) : Record p KeyRange where
  name := "KeyRange"
  members :=
    .cons (.optional "start_key" 1 (.binary p)) <|
    .cons (.optional "end_key" 2 (.binary p)) <|
    .cons (.optional "start_token" 3 (.string p)) <|
    .cons (.optional "end_token" 4 (.string p)) <|
    .cons (.always true "count" 5 (.i32Or p 100)) .nil
  ids_nodup := (by decide : ([1, 2, 3, 4, 5] : List Int16).Nodup)
  equiv := {
    toFun := fun (startKey, endKey, startToken, endToken, count, ()) =>
      ⟨startKey, endKey, startToken, endToken, count⟩
    invFun := fun a => (a.startKey, a.endKey, a.startToken, a.endToken, a.count, ())
    left_inv _ := rfl
    right_inv _ := rfl }

structure KeySlice where
  key : Bytes
  columns : List ColumnOrSuperColumn

def KeySlice.record (p : Protocol) : Record p KeySlice where
  name := "KeySlice"
  members :=
    .cons (.always true "key" 1 (.binary p)) <|
    .cons (.always true "columns" 2 (ColumnOrSuperColumn.record p).codec.list) .nil
  ids_nodup := nodup_two
  equiv := {
    toFun := fun (key, columns, ()) =>
      ⟨key, columns⟩
    invFun := fun a => (a.key, a.columns, ())
    left_inv _ := rfl
    right_inv _ := rfl }

structure KeyCount where
  key : Bytes
  count : Int32

def KeyCount.record (p : Protocol) : Record p KeyCount where
  name := "KeyCount"
  members :=
    .cons (.always true "key" 1 (.binary p)) <|
    .cons (.always true "count" 2 (.i32 p)) .nil
  ids_nodup := nodup_two
  equiv := {
    toFun := fun (key, count, ()) =>
      ⟨key, count⟩
    invFun := fun a => (a.key, a.count, ())
    left_inv _ := rfl
    right_inv _ := rfl }

/-! ## What a mutation does -/

structure Deletion where
  timestamp : Int64
  superColumn : Optional Bytes
  predicate : Optional SlicePredicate

def Deletion.record (p : Protocol) : Record p Deletion where
  name := "Deletion"
  members :=
    .cons (.always true "timestamp" 1 (.i64 p)) <|
    .cons (.optional "super_column" 2 (.binary p)) <|
    .cons (.optional "predicate" 3 (SlicePredicate.record p).codec) .nil
  ids_nodup := nodup_three
  equiv := {
    toFun := fun (timestamp, superColumn, predicate, ()) =>
      ⟨timestamp, superColumn, predicate⟩
    invFun := fun a => (a.timestamp, a.superColumn, a.predicate, ())
    left_inv _ := rfl
    right_inv _ := rfl }

structure Mutation where
  columnOrSupercolumn : Optional ColumnOrSuperColumn
  deletion : Optional Deletion

def Mutation.record (p : Protocol) : Record p Mutation where
  name := "Mutation"
  members :=
    .cons (.optional "column_or_supercolumn" 1 (ColumnOrSuperColumn.record p).codec) <|
    .cons (.optional "deletion" 2 (Deletion.record p).codec) .nil
  ids_nodup := nodup_two
  equiv := {
    toFun := fun (columnOrSupercolumn, deletion, ()) =>
      ⟨columnOrSupercolumn, deletion⟩
    invFun := fun a => (a.columnOrSupercolumn, a.deletion, ())
    left_inv _ := rfl
    right_inv _ := rfl }

/-! ## The cluster and its definitions -/

structure TokenRange where
  startToken : Bytes
  endToken : Bytes
  endpoints : List Bytes

def TokenRange.record (p : Protocol) : Record p TokenRange where
  name := "TokenRange"
  members :=
    .cons (.always true "start_token" 1 (.string p)) <|
    .cons (.always true "end_token" 2 (.string p)) <|
    .cons (.always true "endpoints" 3 (Codec.string p).list) .nil
  ids_nodup := nodup_three
  equiv := {
    toFun := fun (startToken, endToken, endpoints, ()) =>
      ⟨startToken, endToken, endpoints⟩
    invFun := fun a => (a.startToken, a.endToken, a.endpoints, ())
    left_inv _ := rfl
    right_inv _ := rfl }

structure AuthenticationRequest where
  credentials : SortedMap Bytes Bytes

def AuthenticationRequest.record (p : Protocol) : Record p AuthenticationRequest where
  name := "AuthenticationRequest"
  members :=
    .cons (.always true "credentials" 1 (.map (.string p) (.string p) (Codec.merge_string p))) .nil
  ids_nodup := nodup_one
  equiv := {
    toFun := fun (credentials, ()) =>
      ⟨credentials⟩
    invFun := fun a => (a.credentials, ())
    left_inv _ := rfl
    right_inv _ := rfl }

structure ColumnDef where
  name : Bytes
  validationClass : Bytes
  indexType : Optional IndexType
  indexName : Optional Bytes

def ColumnDef.record (p : Protocol) : Record p ColumnDef where
  name := "ColumnDef"
  members :=
    .cons (.always true "name" 1 (.binary p)) <|
    .cons (.always true "validation_class" 2 (.string p)) <|
    .cons (.optional "index_type" 3 (.i32 p)) <|
    .cons (.optional "index_name" 4 (.string p)) .nil
  ids_nodup := nodup_four
  equiv := {
    toFun := fun (name, validationClass, indexType, indexName, ()) =>
      ⟨name, validationClass, indexType, indexName⟩
    invFun := fun a => (a.name, a.validationClass, a.indexType, a.indexName, ())
    left_inv _ := rfl
    right_inv _ := rfl }

structure CfDef where
  keyspace : Bytes
  name : Bytes
  columnType : Optional Bytes
  comparatorType : Optional Bytes
  subcomparatorType : Optional Bytes
  comment : Optional Bytes
  rowCacheSize : Optional UInt64
  keyCacheSize : Optional UInt64
  readRepairChance : Optional UInt64
  columnMetadata : Optional (List ColumnDef)
  gcGraceSeconds : Optional Int32
  defaultValidationClass : Optional Bytes
  id : Optional Int32
  minCompactionThreshold : Optional Int32
  maxCompactionThreshold : Optional Int32
  rowCacheSavePeriodInSeconds : Optional Int32
  keyCacheSavePeriodInSeconds : Optional Int32
  memtableFlushAfterMins : Optional Int32
  memtableThroughputInMb : Optional Int32
  memtableOperationsInMillions : Optional UInt64

def CfDef.record (p : Protocol) : Record p CfDef where
  name := "CfDef"
  members :=
    .cons (.always true "keyspace" 1 (.string p)) <|
    .cons (.always true "name" 2 (.string p)) <|
    .cons (.optional "column_type" 3 (.stringOr p (ascii "Standard"))) <|
    .cons (.optional "comparator_type" 5 (.stringOr p (ascii "BytesType"))) <|
    .cons (.optional "subcomparator_type" 6 (.string p)) <|
    .cons (.optional "comment" 8 (.string p)) <|
    .cons (.optional "row_cache_size" 9 (.double p)) <|
    .cons (.optional "key_cache_size" 11 (.doubleOr p 0x41086A0000000000)) <|
    .cons (.optional "read_repair_chance" 12 (.doubleOr p 0x3FF0000000000000)) <|
    .cons (.optional "column_metadata" 13 (ColumnDef.record p).codec.list) <|
    .cons (.optional "gc_grace_seconds" 14 (.i32 p)) <|
    .cons (.optional "default_validation_class" 15 (.string p)) <|
    .cons (.optional "id" 16 (.i32 p)) <|
    .cons (.optional "min_compaction_threshold" 17 (.i32 p)) <|
    .cons (.optional "max_compaction_threshold" 18 (.i32 p)) <|
    .cons (.optional "row_cache_save_period_in_seconds" 19 (.i32 p)) <|
    .cons (.optional "key_cache_save_period_in_seconds" 20 (.i32 p)) <|
    .cons (.optional "memtable_flush_after_mins" 21 (.i32 p)) <|
    .cons (.optional "memtable_throughput_in_mb" 22 (.i32 p)) <|
    .cons (.optional "memtable_operations_in_millions" 23 (.double p)) .nil
  ids_nodup := (by decide : ([1, 2, 3, 5, 6, 8, 9, 11, 12, 13, 14, 15,
    16, 17, 18, 19, 20, 21, 22, 23] : List Int16).Nodup)
  equiv := {
    toFun := fun (keyspace, name, columnType, comparatorType, subcomparatorType, comment,
      rowCacheSize, keyCacheSize, readRepairChance, columnMetadata, gcGraceSeconds,
      defaultValidationClass, id, minCompactionThreshold, maxCompactionThreshold,
      rowCacheSavePeriodInSeconds, keyCacheSavePeriodInSeconds, memtableFlushAfterMins,
      memtableThroughputInMb, memtableOperationsInMillions, ()) =>
      ⟨keyspace, name, columnType, comparatorType, subcomparatorType, comment, rowCacheSize,
      keyCacheSize, readRepairChance, columnMetadata, gcGraceSeconds, defaultValidationClass, id,
      minCompactionThreshold, maxCompactionThreshold, rowCacheSavePeriodInSeconds,
      keyCacheSavePeriodInSeconds, memtableFlushAfterMins, memtableThroughputInMb,
      memtableOperationsInMillions⟩
    invFun := fun a => (a.keyspace, a.name, a.columnType, a.comparatorType, a.subcomparatorType,
      a.comment, a.rowCacheSize, a.keyCacheSize, a.readRepairChance, a.columnMetadata,
      a.gcGraceSeconds, a.defaultValidationClass, a.id, a.minCompactionThreshold,
      a.maxCompactionThreshold, a.rowCacheSavePeriodInSeconds, a.keyCacheSavePeriodInSeconds,
      a.memtableFlushAfterMins, a.memtableThroughputInMb, a.memtableOperationsInMillions, ())
    left_inv _ := rfl
    right_inv _ := rfl }

structure KsDef where
  name : Bytes
  strategyClass : Bytes
  strategyOptions : Optional (SortedMap Bytes Bytes)
  replicationFactor : Int32
  cfDefs : List CfDef

def KsDef.record (p : Protocol) : Record p KsDef where
  name := "KsDef"
  members :=
    .cons (.always true "name" 1 (.string p)) <|
    .cons (.always true "strategy_class" 2 (.string p)) <|
    .cons (.optional "strategy_options" 3 (.map (.string p) (.string p) (Codec.merge_string p))) <|
    .cons (.always true "replication_factor" 4 (.i32 p)) <|
    .cons (.always true "cf_defs" 5 (CfDef.record p).codec.list) .nil
  ids_nodup := (by decide : ([1, 2, 3, 4, 5] : List Int16).Nodup)
  equiv := {
    toFun := fun (name, strategyClass, strategyOptions, replicationFactor, cfDefs, ()) =>
      ⟨name, strategyClass, strategyOptions, replicationFactor, cfDefs⟩
    invFun := fun a => (a.name, a.strategyClass, a.strategyOptions, a.replicationFactor, a.cfDefs,
      ())
    left_inv _ := rfl
    right_inv _ := rfl }

/-! ## All classes -/

inductive Struct
  | column | superColumn | columnOrSuperColumn | notFoundException | invalidRequestException
  | unavailableException | timedOutException | authenticationException | authorizationException
  | columnParent | columnPath | sliceRange | slicePredicate | indexExpression | indexClause
  | keyRange | keySlice | keyCount | deletion | mutation | tokenRange | authenticationRequest
  | columnDef | cfDef | ksDef
  deriving DecidableEq, Repr

namespace Struct

/-- The objects of a class. -/
@[reducible] def Object : Struct → Type
  | column => Column
  | superColumn => SuperColumn
  | columnOrSuperColumn => ColumnOrSuperColumn
  | notFoundException => NotFoundException
  | invalidRequestException => InvalidRequestException
  | unavailableException => UnavailableException
  | timedOutException => TimedOutException
  | authenticationException => AuthenticationException
  | authorizationException => AuthorizationException
  | columnParent => ColumnParent
  | columnPath => ColumnPath
  | sliceRange => SliceRange
  | slicePredicate => SlicePredicate
  | indexExpression => IndexExpression
  | indexClause => IndexClause
  | keyRange => KeyRange
  | keySlice => KeySlice
  | keyCount => KeyCount
  | deletion => Deletion
  | mutation => Mutation
  | tokenRange => TokenRange
  | authenticationRequest => AuthenticationRequest
  | columnDef => ColumnDef
  | cfDef => CfDef
  | ksDef => KsDef

/-- **The classes**, with what they read and write. -/
def record (p : Protocol) : (s : Struct) → Record p s.Object
  | column => Column.record p
  | superColumn => SuperColumn.record p
  | columnOrSuperColumn => ColumnOrSuperColumn.record p
  | notFoundException => NotFoundException.record p
  | invalidRequestException => InvalidRequestException.record p
  | unavailableException => UnavailableException.record p
  | timedOutException => TimedOutException.record p
  | authenticationException => AuthenticationException.record p
  | authorizationException => AuthorizationException.record p
  | columnParent => ColumnParent.record p
  | columnPath => ColumnPath.record p
  | sliceRange => SliceRange.record p
  | slicePredicate => SlicePredicate.record p
  | indexExpression => IndexExpression.record p
  | indexClause => IndexClause.record p
  | keyRange => KeyRange.record p
  | keySlice => KeySlice.record p
  | keyCount => KeyCount.record p
  | deletion => Deletion.record p
  | mutation => Mutation.record p
  | tokenRange => TokenRange.record p
  | authenticationRequest => AuthenticationRequest.record p
  | columnDef => ColumnDef.record p
  | cfDef => CfDef.record p
  | ksDef => KsDef.record p

variable {p : Protocol} (s : Struct)

/-- **Any fields** of any class: each value for a member is read into it, in the
order they arrive in, and whatever else arrives is passed over. Reading fails
in the end where a required member has not arrived, and only there. -/
theorem read_any_fields {es : List (Element (s.record p).members)} (hes : ∀ e ∈ es, e.Fits)
    (name : String) (o : s.Object) (rest : Bytes) :
    (s.record p).codec.read o (p.text (structTokens name es) ++ rest) =
      if (s.record p).members.requiredIds ⊆ (givens es).map Members.Given.id then
        .ok ((s.record p).putAll (givens es) o, rest)
      else .error .invalidData :=
  Record.read_fields hes name o rest

/-- A column, and an object that has held one with a time to live. -/
def plainColumn : Column := ⟨ascii "n", ascii "v", 5, ⟨0, false⟩⟩

def usedColumn : Column := ⟨[], [], 0, ⟨7, true⟩⟩

/-- The fields of the column the other way round, and one that is no member. -/
def shuffledColumn : List (Element (column.record binaryProtocol).members) :=
  [.known "timestamp" (.there (.there (.here (5 : Int64)))),
    .foreign "comment" .string 9 [.string (ascii "new")],
    .known "value" (.there (.here (ascii "v"))), .known "name" (.here (ascii "n"))]

theorem fits_shuffledColumn : ∀ e ∈ shuffledColumn, e.Fits := by
  intro e he
  simp only [shuffledColumn, List.mem_cons, List.not_mem_nil, or_false] at he
  rcases he with rfl | rfl | rfl | rfl
  · exact trivial
  · exact ⟨by decide, rfl, .string (by decide)⟩
  · change (ascii "v").length < sizeLimit
    decide
  · change (ascii "n").length < sizeLimit
    decide

/-- A column without its name is none. -/
theorem read_any_fields_unnamed :
    (column.record binaryProtocol).codec.read usedColumn
        (binaryProtocol.text (structTokens "Column" (shuffledColumn.take 3)) ++ []) =
      .error .invalidData := by
  have hname : (1 : Int16) ∉ ([3, 2] : List Int16) := by decide
  exact (read_any_fields column (fun e he => fits_shuffledColumn e (List.mem_of_mem_take he))
    "Column" usedColumn []).trans (if_neg fun h => hname (h List.mem_cons_self))

/-- **What was written is read back**, in whatever order its fields arrive and
with foreign ones between them. What comes of the object that is read into
agrees with what was written if and only if nothing is set in it that is not
set there. -/
theorem read_back {es : List (Element (s.record p).members)} (hes : ∀ e ∈ es, e.Fits)
    {a : s.Object} (hperm : (givens es).Perm ((s.record p).written a)) (name : String)
    (o : s.Object) :
    Reads ((s.record p).codec.read o) (p.text (structTokens name es))
        ((s.record p).codec.merge o a) ∧
      ((s.record p).codec.Same ((s.record p).codec.merge o a) a ↔
        (s.record p).codec.Clean o a) :=
  ⟨Record.reads_written hes hperm name o, (s.record p).codec.same_merge_iff⟩

theorem read_back_used :
    Reads ((column.record binaryProtocol).codec.read usedColumn)
        (binaryProtocol.text (structTokens "Column" shuffledColumn))
        ⟨ascii "n", ascii "v", 5, ⟨7, true⟩⟩ ∧
      ((column.record binaryProtocol).codec.Same ⟨ascii "n", ascii "v", 5, ⟨7, true⟩⟩ plainColumn ↔
        (column.record binaryProtocol).codec.Clean usedColumn plainColumn) :=
  read_back column fits_shuffledColumn
    (List.reverse_perm ((column.record binaryProtocol).written plainColumn)) "Column" usedColumn

end Struct

end Cassandra

end Supercell
