import Supercell.Cassandra.Methods
import Supercell.Thrift.Binary

/-!
# Cassandra — sessions

`CassandraClient` and `CassandraProcessor` over a connection. Calls may be sent
before the replies to earlier ones are read; the client then reads, in the
order of its calls, what a handler that is called once for each of them has
answered. What a call returns is read into an object of the caller, and for two
of the methods what was in it before can be seen there afterwards.
-/

namespace Supercell

namespace Cassandra

open Thrift

variable {p : Protocol} {σ : Type}

/-- **Sessions.** In whatever order client and processor take their steps, as
long as nothing is read before it has been written, the client receives what
the requests are answered one after the other, and the answers that it has not
received are those that are still on their way. -/
theorem run_session (xs : Exceptions p) (handler : Handler (service p) σ)
    (as : List (Action (service p))) (s : σ) (hfits : ∀ r ∈ sent as, r.Fits xs handler)
    (henabled : Enabled as 0 0) :
    ∃ requests' replies' s',
      Connection.run xs handler as ⟨[], [], s⟩ =
        .ok (wire xs requests' replies' s',
          List.zipWith receivedOf (awaited as) (answersTo handler (sent as) s)) ∧
      replies' ++ answersTo handler requests' s' =
        (answersTo handler (sent as) s).drop (awaited as).length ∧
      (awaited as).length ≤ (answersTo handler (sent as) s).length :=
  run_wire [] [] s hfits (fun _ h => absurd h List.not_mem_nil) henabled

/-- A handler that knows its version, turns every login down, and counts its
calls. -/
def countingHandler : Handler (service binaryProtocol) ℕ where
  handle
    | .describeVersion, _, n => (.returned (ascii "19.4.0"), n + 1)
    | .login, _, n => (.thrown (.authentication ⟨ascii "wrong password"⟩), n + 1)
    | _, _, n => (.thrown (.other (ascii "not implemented")), n + 1)
  what
    | .other what => what
    | _ => ascii "Default TException."

theorem fits_describeVersion :
    (Request.call .describeVersion () : Request (service binaryProtocol)).Fits
      (.asFields binaryProtocol) countingHandler := by
  refine ⟨trivial, fun s c hc => ?_⟩
  obtain rfl := Option.some.inj hc
  change (ascii "19.4.0").length < sizeLimit
  decide

theorem fits_login :
    (Request.call .login (⟨.empty⟩, ()) : Request (service binaryProtocol)).Fits
      (.asFields binaryProtocol) countingHandler := by
  refine ⟨⟨(Member.fits_always _).2 ⟨(Member.fits_always _).2 ?_, trivial⟩, trivial⟩, fun s => ?_⟩
  · exact ⟨by decide, fun e he => absurd he List.not_mem_nil⟩
  · refine ⟨(Member.fits_always _).2 ?_, trivial⟩
    change (ascii "wrong password").length < sizeLimit
    decide

theorem fits_ping :
    (Request.other (ascii "ping") .call 7 [.structBegin "", .fieldStop, .structEnd] :
      Request (service binaryProtocol)).Fits (.asFields binaryProtocol) countingHandler := by
  refine ⟨⟨by decide, .struct "" .noFields, .inr (by decide +kernel)⟩, fun s => ⟨by decide, ?_⟩⟩
  refine ⟨(Member.fits_always _).2 ?_, (Member.fits_always _).2 trivial, trivial⟩
  change (ascii "Invalid method name: '" ++ ascii "ping" ++ ascii "'").length < sizeLimit
  decide

/-- Two calls are sent before the first reply is read, and a message that is no
call comes between them. -/
def twoCalls : List (Action (service binaryProtocol)) :=
  [.send (.call .describeVersion ()),
    .send (.other (ascii "ping") .call 7 [.structBegin "", .fieldStop, .structEnd]),
    .serve, .send (.call .login (⟨.empty⟩, ())), .recv .describeVersion [], .serve, .serve,
    .recv .login (), .recv .login ()]

theorem run_session_twoCalls :
    ∃ requests' replies' s',
      Connection.run (.asFields binaryProtocol) countingHandler twoCalls ⟨[], [], 0⟩ =
        .ok (wire (.asFields binaryProtocol) requests' replies' s',
          List.zipWith receivedOf (awaited twoCalls) (answersTo countingHandler (sent twoCalls) 0)) ∧
      replies' ++ answersTo countingHandler requests' s' =
        (answersTo countingHandler (sent twoCalls) 0).drop (awaited twoCalls).length ∧
      (awaited twoCalls).length ≤ (answersTo countingHandler (sent twoCalls) 0).length := by
  refine run_session (.asFields binaryProtocol) countingHandler twoCalls 0 ?_ trivial
  intro r hr
  simp only [sent, twoCalls, List.mem_cons, List.not_mem_nil, or_false] at hr
  rcases hr with rfl | rfl | rfl
  · exact fits_describeVersion
  · exact fits_ping
  · exact fits_login

/-- **Remote calls are as local ones**: one call after the other over a
connection leaves handler and callers with what calls of the handler itself
would, if it does not look at members that are not set. -/
theorem remote_calls (xs : Exceptions p) {handler : Handler (service p) σ}
    (hrespects : handler.Respects) {cs : List (Call (service p))}
    (hfits : ∀ c ∈ cs, (Request.call c.name c.args).Fits xs handler) (s : σ) :
    Connection.run xs handler (cs.flatMap Call.actions) ⟨[], [], s⟩ =
      .ok (⟨[], [], (localCalls handler cs s).2⟩, (localCalls handler cs s).1) :=
  run_calls hrespects hfits s

theorem remote_calls_version_login :
    Connection.run (.asFields binaryProtocol) countingHandler
        (([⟨.describeVersion, (), []⟩, ⟨.login, (⟨.empty⟩, ()), ()⟩] :
          List (Call (service binaryProtocol))).flatMap Call.actions) ⟨[], [], 0⟩ =
      .ok (⟨[], [], 2⟩, [⟨.describeVersion, ascii "19.4.0", .returned⟩,
        ⟨.login, (), .threw (.authentication ⟨ascii "wrong password"⟩)⟩]) := by
  refine remote_calls (.asFields binaryProtocol) (fun m _ _ _ _ => by cases m <;> rfl) ?_ 0
  intro c hc
  simp only [List.mem_cons, List.not_mem_nil, or_false] at hc
  rcases hc with rfl | rfl
  · exact fits_describeVersion
  · exact fits_login

/-- **Reading ends**, whatever arrives: for the processor, for every method of
the client, and for every class of the interface. -/
theorem ends_reading (xs : Exceptions p) (handler : Handler (service p) σ) :
    (∀ s, Ends (process xs handler s)) ∧
    (∀ (m : Name) (ret : (m.method p).Ret), Ends ((m.method p).recv xs ret)) ∧
    ∀ (c : Struct) (o : c.Object), Ends ((c.record p).codec.read o) :=
  ⟨ends_process xs handler, fun m ret => ends_recv xs (m.method p) ret,
    fun c o => (c.record p).codec.ends o⟩

/-! ## Objects that are used again -/

/-- What is left of a column that is read into. -/
theorem clean_column (o a : Column) :
    (Column.record p).codec.Clean o a ↔ (a.ttl.isset = true ∨ o.ttl.isset = false) := by
  change True ∧ True ∧ True ∧
    (Member.optional "ttl" 4 (Codec.i32 p)).Clean o.ttl a.ttl ∧ True ↔ _
  rw [Member.clean_optional, true_and, true_and, true_and, and_true]
  change (a.ttl.isset = true → True) ∧ _ ↔ _
  cases a.ttl.isset <;> simp

theorem clean_columnOrSuperColumn (o a : ColumnOrSuperColumn) :
    (ColumnOrSuperColumn.record p).codec.Clean o a ↔
      (a.column.isset = true → a.column.value.ttl.isset = true ∨ o.column.value.ttl.isset = false) ∧
      (a.column.isset = false → o.column.isset = false) ∧
      (a.superColumn.isset = false → o.superColumn.isset = false) := by
  change (Member.optional "column" 1 (Column.record p).codec).Clean o.column a.column ∧
    (Member.optional "super_column" 2 (SuperColumn.record p).codec).Clean o.superColumn
      a.superColumn ∧ True ↔ _
  have hsuper : ∀ o a : SuperColumn, (SuperColumn.record p).codec.Clean o a := fun _ _ =>
    ⟨trivial, trivial, trivial⟩
  rw [Member.clean_optional, Member.clean_optional, clean_column, and_true, and_assoc]
  exact and_congr_right fun _ => and_congr_right fun _ =>
    ⟨fun h => h.2, fun h => ⟨fun _ => hsuper _ _, h⟩⟩

theorem clean_ksDef (o a : KsDef) :
    (KsDef.record p).codec.Clean o a ↔
      (a.strategyOptions.isset = true ∨ o.strategyOptions.isset = false) := by
  let options : Codec p (SortedMap Bytes Bytes) := .map (.string p) (.string p) fun _ _ => rfl
  change True ∧ True ∧
    (Member.optional "strategy_options" 3 options).Clean o.strategyOptions a.strategyOptions ∧
      True ∧ True ∧ True ↔ _
  rw [Member.clean_optional, true_and, true_and, and_true, and_true, and_true]
  change (a.strategyOptions.isset = true → True) ∧ _ ↔ _
  cases a.strategyOptions.isset <;> simp

/-- **What a call leaves in the object of its caller** agrees with what was
returned, whatever was in the object before, for every method but two. For
`get`, a column or a super column that was set before stays set where none is
returned, and a time to live where the returned column has none; for
`describe_keyspace`, the options of the strategy do. -/
theorem same_received :
    (∀ m : Name, m ≠ .get → m ≠ .describeKeyspace → ∀ c ∈ (m.method p).success, ∀ ret b,
      c.Same ((m.method p).received ret b) b) ∧
    (∀ ret b : ColumnOrSuperColumn,
      (ColumnOrSuperColumn.record p).codec.Same ((get p).received ret b) b ↔
        (b.column.isset = true →
          b.column.value.ttl.isset = true ∨ ret.column.value.ttl.isset = false) ∧
        (b.column.isset = false → ret.column.isset = false) ∧
        (b.superColumn.isset = false → ret.superColumn.isset = false)) ∧
    ∀ ret b : KsDef, (KsDef.record p).codec.Same ((describeKeyspace p).received ret b) b ↔
      (b.strategyOptions.isset = true ∨ ret.strategyOptions.isset = false) := by
  refine ⟨?_, ?_, ?_⟩
  · intro m hget hdescribe c hc ret b
    rw [Method.received_eq hc]
    refine c.same_merge_iff.2 ?_
    cases m with
    | get => exact absurd rfl hget
    | describeKeyspace => exact absurd rfl hdescribe
    | login | setKeyspace | insert | remove | batchMutate | truncate => exact nomatch hc
    | _ =>
      obtain rfl := Option.some.inj hc
      exact trivial
  · intro ret b
    exact (ColumnOrSuperColumn.record p).codec.same_merge_iff.trans (clean_columnOrSuperColumn ret b)
  · intro ret b
    exact (KsDef.record p).codec.same_merge_iff.trans (clean_ksDef ret b)

end Cassandra

end Supercell
