import Supercell.Thrift.Struct

/-!
# Thrift — services

A client writes calls to one stream and reads replies from another; the
processor at the other end reads a call, has the handler answer it, and
writes the reply. A reply is the result, one of the exceptions that the
method declares, or an application exception. Client and processor share
nothing but the two streams, so their steps may come in any order in which
what is read has been written.
-/

namespace Supercell

namespace Thrift

variable {p : Protocol} {E σ : Type}

/-! ## What a service declares -/

inductive ApplicationExceptionType
  | unknown | unknownMethod | invalidMessageType | wrongMethodName | missingResult
  deriving DecidableEq, Repr

/-- `TApplicationException`. -/
structure ApplicationException where
  type : ApplicationExceptionType
  message : Bytes
  deriving DecidableEq, Repr

/-- How application exceptions are read and written. -/
structure Exceptions (p : Protocol) where
  codec : Codec p ApplicationException
  merge_init : ∀ x, codec.merge codec.init x = x

/-- The number of a type of application exceptions. -/
def ApplicationExceptionType.code : ApplicationExceptionType → Int32
  | unknown => 0
  | unknownMethod => 1
  | invalidMessageType => 2
  | wrongMethodName => 3
  | missingResult => 5

def ApplicationExceptionType.ofCode (n : Int32) : ApplicationExceptionType :=
  if n = 1 then unknownMethod
  else if n = 2 then invalidMessageType
  else if n = 3 then wrongMethodName
  else if n = 5 then missingResult
  else unknown

theorem ApplicationExceptionType.ofCode_code (t : ApplicationExceptionType) :
    ofCode t.code = t := by
  cases t <;> rfl

/-- Application exceptions as two fields, a text and a number. -/
def Exceptions.asFields (p : Protocol) : Exceptions p where
  codec := (Codec.struct "TApplicationException"
    (.cons (.always false "message" 1 (.string p)) <|
      .cons (.always false "type" 2 (.enum p .unknown ApplicationExceptionType.code .ofCode
        fun t => t.ofCode_code)) .nil)
    nodup_two).transport {
      toFun := fun (message, type, ()) => ⟨type, message⟩
      invFun := fun x => (x.message, x.type, ())
      left_inv _ := rfl
      right_inv _ := rfl }
  merge_init _ := rfl

/-- An exception that a method declares, among all that there are. -/
structure Throws (p : Protocol) (E : Type) where
  {β : Type}
  name : String
  id : Int16
  codec : Codec p β
  raise : β → E
  catches : E → Option β
  raise_merge : ∀ {e b}, catches e = some b → raise (codec.merge codec.init b) = e

/-- The members of a result for the declared exceptions. -/
def throwsMembers : List (Throws p E) → Members p
  | [] => .nil
  | t :: ts => .cons (.optional t.name t.id t.codec) (throwsMembers ts)

/-- **A method**: one that returns nothing has no codec for what it returns. -/
structure Method (p : Protocol) (E : Type) where
  {Args : Type}
  {Ret : Type}
  name : String
  resultName : String
  args : Codec p Args
  success : Option (Codec p Ret)
  throws : List (Throws p E)
  ids_nodup : (0 :: (throwsMembers throws).ids).Nodup
  name_fits : (ascii name).length < sizeLimit

/-- The methods, and how the processor finds them. -/
structure Service (p : Protocol) (E : Type) where
  {Name : Type}
  [decEq : DecidableEq Name]
  method : Name → Method p E
  find : Bytes → Option Name
  find_name : ∀ m, find (ascii (method m).name) = some m

/-- How a call ends for the handler; an exception has a text of its own. -/
inductive Outcome (β E : Type)
  | returned (value : β)
  | thrown (e : E)

/-- How a call ends for the client. -/
inductive Answer (E : Type)
  | returned
  | threw (e : E)
  | application (x : ApplicationException)

/-! ## Results -/

/-- The `catch` clause that an exception meets. -/
def caught : (ts : List (Throws p E)) → E → Option (throwsMembers ts).Given
  | [], _ => none
  | t :: ts, e =>
    match t.catches e with
    | some b => some (.here b)
    | none => (caught ts e).map .there

/-- The exception that the client throws: the first one that is set. -/
def raised : (ts : List (Throws p E)) → (throwsMembers ts).Carrier → Option E
  | [], _ => none
  | t :: ts, (a, s) => if a.isset then some (t.raise a.value) else raised ts s

theorem requiredIds_throwsMembers (ts : List (Throws p E)) :
    (throwsMembers ts).requiredIds = [] := by
  induction ts with
  | nil => rfl
  | cons t ts ih => exact ih

theorem writeChosen_init (ts : List (Throws p E)) :
    (throwsMembers ts).writeChosen (throwsMembers ts).init = [] := by
  induction ts with
  | nil => rfl
  | cons t ts ih => exact ih

/-- **Of a result with one exception set, that one is written.** -/
theorem writeChosen_assign (ts : List (Throws p E)) (x : (throwsMembers ts).Given) :
    (throwsMembers ts).writeChosen (x.assign (throwsMembers ts).init) = x.tokens := by
  induction ts with
  | nil => exact nomatch x
  | cons t ts ih =>
    cases x with
    | here b => rfl
    | there x => exact ih x

theorem raised_init (ts : List (Throws p E)) : raised ts (throwsMembers ts).init = none := by
  induction ts with
  | nil => rfl
  | cons t ts ih => exact ih

/-- **What was caught is thrown again.** -/
theorem raised_put {ts : List (Throws p E)} {e : E} {x : (throwsMembers ts).Given}
    (h : caught ts e = some x) : raised ts (x.put (throwsMembers ts).init) = some e := by
  induction ts with
  | nil => exact nomatch h
  | cons t ts ih =>
    rw [caught] at h
    cases hcatches : t.catches e with
    | some b =>
      rw [hcatches] at h
      obtain rfl := Option.some.inj h
      exact congrArg some (t.raise_merge hcatches)
    | none =>
      rw [hcatches] at h
      obtain ⟨y, hy, rfl⟩ := Option.map_eq_some_iff.1 h
      exact ih hy

namespace Method

variable (m : Method p E)

/-- The members of the result. -/
def resultMembers (c : Codec p m.Ret) : Members p :=
  .cons (.optional "success" 0 c) (throwsMembers m.throws)

/-- What is written between the beginning and the end of a result. -/
def resultTokens (body : List Token) : List Token :=
  .structBegin m.resultName :: (body ++ [.fieldStop, .structEnd])

/-- The result of a call that returns. -/
def resultReturned (b : m.Ret) : List Token :=
  match m.success with
  | some c => m.resultTokens ((m.resultMembers c).writeChosen
      (⟨b, true⟩, (throwsMembers m.throws).init))
  | none => m.resultTokens ((throwsMembers m.throws).writeChosen (throwsMembers m.throws).init)

/-- The result of a call that throws what the method declares. -/
def resultThrown (x : (throwsMembers m.throws).Given) : List Token :=
  match m.success with
  | some c => m.resultTokens ((m.resultMembers c).writeChosen
      (⟨c.init, false⟩, x.assign (throwsMembers m.throws).init))
  | none => m.resultTokens ((throwsMembers m.throws).writeChosen
      (x.assign (throwsMembers m.throws).init))

/-- The object of the caller when the call has returned. -/
def received (ret b : m.Ret) : m.Ret :=
  match m.success with
  | some c => c.merge ret b
  | none => ret

/-- **Reading a result** for the client, into the object of the caller. -/
def readResult (ret : m.Ret) : Reader (m.Ret × Answer E) :=
  match m.success with
  | some c => do
    let (success, thrown) ← readStruct (m.resultMembers c) (⟨ret, false⟩, (throwsMembers m.throws).init)
    p.run .readMessageEnd
    return (success.value,
      if success.isset then .returned
      else match raised m.throws thrown with
        | some e => .threw e
        | none => .application ⟨.missingResult, ascii (m.name ++ " failed: unknown result")⟩)
  | none => do
    let thrown ← readStruct (throwsMembers m.throws) (throwsMembers m.throws).init
    p.run .readMessageEnd
    return (ret,
      match raised m.throws thrown with
      | some e => .threw e
      | none => .returned)

end Method

/-! ## The client -/

namespace Method

variable (m : Method p E)

/-- **`send`**: the sequence number is always 0. -/
def send (args : m.Args) : List Token :=
  .messageBegin (ascii m.name) .call 0 :: (m.args.write args ++ [.messageEnd])

/-- A message that the client does not want is passed over. -/
def passOver (ret : m.Ret) (type : ApplicationExceptionType) : Reader (m.Ret × Answer E) := do
  p.run (.skip .struct)
  p.run .readMessageEnd
  return (ret, .application ⟨type, []⟩)

/-- **`recv`**, into the object of the caller: the sequence number is not looked
at. -/
def recv (xs : Exceptions p) (ret : m.Ret) : Reader (m.Ret × Answer E) := do
  let (fname, mtype, _) ← p.run .readMessageBegin
  if mtype = .exception then do
    let x ← xs.codec.read xs.codec.init
    p.run .readMessageEnd
    return (ret, .application x)
  else if mtype ≠ .reply then m.passOver ret .invalidMessageType
  else if fname ≠ ascii m.name then m.passOver ret .wrongMethodName
  else m.readResult ret

end Method

/-! ## The processor -/

/-- What answers the calls: a handler, with the texts of its exceptions. -/
structure Handler (S : Service p E) (σ : Type) where
  handle : (m : S.Name) → (S.method m).Args → σ → Outcome (S.method m).Ret E × σ
  what : E → Bytes

/-- An application exception as a message. -/
def exceptionTokens (xs : Exceptions p) (name : Bytes) (seqid : Int32)
    (x : ApplicationException) : List Token :=
  .messageBegin name .exception seqid :: (xs.codec.write x ++ [.messageEnd])

/-- A result as a message. -/
def replyTokens (name : Bytes) (seqid : Int32) (result : List Token) : List Token :=
  .messageBegin name .reply seqid :: (result ++ [.messageEnd])

section Processor

variable {S : Service p E} (xs : Exceptions p) (handler : Handler S σ)

/-- The message that is written for the way a call ends. -/
def outcomeTokens (m : S.Name) (seqid : Int32) : Outcome (S.method m).Ret E → List Token
  | .returned b => replyTokens (ascii (S.method m).name) seqid ((S.method m).resultReturned b)
  | .thrown e =>
    match caught (S.method m).throws e with
    | some x => replyTokens (ascii (S.method m).name) seqid ((S.method m).resultThrown x)
    | none => exceptionTokens xs (ascii (S.method m).name) seqid ⟨.unknown, handler.what e⟩

/-- `process_` of a method. -/
def processMethod (m : S.Name) (seqid : Int32) (s : σ) : Reader (List Token × σ) := do
  let args ← (S.method m).args.read (S.method m).args.init
  p.run .readMessageEnd
  let (outcome, s') := handler.handle m args s
  return (outcomeTokens xs handler m seqid outcome, s')

/-- `process_fn`: the method of this name. -/
def processFn (fname : Bytes) (seqid : Int32) (s : σ) : Reader (List Token × σ) :=
  match S.find fname with
  | none => do
    p.run (.skip .struct)
    p.run .readMessageEnd
    return (exceptionTokens xs fname seqid
      ⟨.unknownMethod, ascii "Invalid method name: '" ++ fname ++ ascii "'"⟩, s)
  | some m => processMethod xs handler m seqid s

/-- **`process`**: one message is read, and one is written. -/
def process (s : σ) : Reader (List Token × σ) := do
  let (fname, mtype, seqid) ← p.run .readMessageBegin
  if mtype ≠ .call ∧ mtype ≠ .oneway then do
    p.run (.skip .struct)
    p.run .readMessageEnd
    return (exceptionTokens xs fname seqid ⟨.invalidMessageType, []⟩, s)
  else processFn xs handler fname seqid s

end Processor

/-! ## Messages -/

/-- What is sent to the processor: a call of the client, or a message that is
none. -/
inductive Request (S : Service p E)
  | call (m : S.Name) (args : (S.method m).Args)
  | other (name : Bytes) (type : MessageType) (seqid : Int32) (body : List Token)

/-- What the processor sends. -/
inductive Reply (S : Service p E)
  | returned (m : S.Name) (value : (S.method m).Ret)
  | threw (m : S.Name) (e : E) (x : (throwsMembers (S.method m).throws).Given)
      (h : caught (S.method m).throws e = some x)
  | exception (name : Bytes) (seqid : Int32) (x : ApplicationException)

section Messages

variable {S : Service p E} (xs : Exceptions p) (handler : Handler S σ)

def Request.tokens : Request S → List Token
  | .call m args => (S.method m).send args
  | .other name type seqid body => .messageBegin name type seqid :: (body ++ [.messageEnd])

def Reply.tokens : Reply S → List Token
  | .returned m b => replyTokens (ascii (S.method m).name) 0 ((S.method m).resultReturned b)
  | .threw m _ x _ => replyTokens (ascii (S.method m).name) 0 ((S.method m).resultThrown x)
  | .exception name seqid x => exceptionTokens xs name seqid x

/-- The reply for the way a call ends. -/
def replyTo (m : S.Name) : Outcome (S.method m).Ret E → Reply S
  | .returned b => .returned m b
  | .thrown e =>
    match h : caught (S.method m).throws e with
    | some x => .threw m e x h
    | none => .exception (ascii (S.method m).name) 0 ⟨.unknown, handler.what e⟩

/-- **The answer to a request**: what the handler makes of the arguments as they
are received. -/
def answerTo : Request S → σ → Reply S × σ
  | .call m args, s =>
    let (outcome, s') := handler.handle m ((S.method m).args.merge (S.method m).args.init args) s
    (replyTo handler m outcome, s')
  | .other name type seqid _, s =>
    if type ≠ .call ∧ type ≠ .oneway then (.exception name seqid ⟨.invalidMessageType, []⟩, s)
    else (.exception name seqid
      ⟨.unknownMethod, ascii "Invalid method name: '" ++ name ++ ascii "'"⟩, s)

/-- The answers to requests, one after the other. -/
def answersTo : List (Request S) → σ → List (Reply S)
  | [], _ => []
  | r :: rs, s => (answerTo handler r s).1 :: answersTo rs (answerTo handler r s).2

/-- **What becomes of a reply** for a client that waits for a method. -/
def deliver (m : S.Name) (ret : (S.method m).Ret) : Reply S → (S.method m).Ret × Answer E
  | .returned m' b =>
    have := S.decEq
    if h : m' = m then ((S.method m).received ret (h ▸ b), .returned)
    else (ret, .application ⟨.wrongMethodName, []⟩)
  | .threw m' e _ _ =>
    have := S.decEq
    if m' = m then (ret, .threw e) else (ret, .application ⟨.wrongMethodName, []⟩)
  | .exception _ _ x => (ret, .application x)

/-- The lengths in a reply are lengths on the wire. -/
def Reply.Fits : Reply S → Prop
  | .returned m b => ∀ c ∈ (S.method m).success, c.Fits b
  | .threw _ _ x _ => x.Fits
  | .exception name _ x => name.length < sizeLimit ∧ xs.codec.Fits x

/-- The request and all answers to it fit; one that is no call of the client is
none for the processor either. -/
def Request.Fits (r : Request S) : Prop :=
  (match r with
    | .call m args => (S.method m).args.Fits args
    | .other name type _ body => name.length < sizeLimit ∧ Forms (.value .struct) body ∧
        ((type ≠ .call ∧ type ≠ .oneway) ∨ S.find name = none)) ∧
    ∀ s, (answerTo handler r s).1.Fits xs

end Messages

/-! ## Results that are written and read -/

section Results

variable {ms : Members p}

/-- A structure with nothing required, of one field. -/
theorem reads_one (hids : ms.ids.Nodup) (hrequired : ms.requiredIds = []) {x : ms.Given}
    (hx : x.Fits) (name : String) (o : ms.Carrier) :
    Reads (readStruct ms o)
      (p.text (.structBegin name :: (x.tokens ++ [.fieldStop, .structEnd]))) (x.put o) := by
  intro rest
  have hes : ∀ e ∈ [Element.known x.name x], e.Fits := by
    intro e he
    rw [List.mem_singleton.1 he]
    exact hx
  have hread := readStruct_eq hids hes name o rest
  rw [if_pos (by rw [hrequired]; exact List.nil_subset _)] at hread
  rw [structTokens, List.flatMap_cons, List.flatMap_nil, List.append_nil] at hread
  exact hread

/-- A structure with nothing required, without fields. -/
theorem reads_none (hids : ms.ids.Nodup) (hrequired : ms.requiredIds = []) (name : String)
    (o : ms.Carrier) :
    Reads (readStruct ms o) (p.text (.structBegin name :: ([] ++ [.fieldStop, .structEnd]))) o := by
  intro rest
  have hes : ∀ e ∈ ([] : List (Element ms)), e.Fits := fun e he => absurd he List.not_mem_nil
  have hread := readStruct_eq hids hes name o rest
  rw [if_pos (by rw [hrequired]; exact List.nil_subset _)] at hread
  exact hread

theorem forms_one {x : ms.Given} (hx : x.Fits) (name : String) :
    Forms (.value .struct) (.structBegin name :: (x.tokens ++ [.fieldStop, .structEnd])) := by
  have hfields : Forms .fields ([x].flatMap Members.Given.tokens) := forms_fields fun y hy => by
    rw [List.mem_singleton.1 hy]
    exact hx
  rw [List.flatMap_cons, List.flatMap_nil, List.append_nil] at hfields
  exact .struct name hfields

end Results

namespace Method

variable {m : Method p E}

theorem received_eq {c : Codec p m.Ret} (h : c ∈ m.success) (ret b : m.Ret) :
    m.received ret b = c.merge ret b := by
  rw [received, Option.mem_def.1 h]

theorem ids_throws_nodup (m : Method p E) : (throwsMembers m.throws).ids.Nodup :=
  (List.nodup_cons.1 m.ids_nodup).2

/-- **A call that returned** returns for the client too. -/
theorem reads_returned {b : m.Ret} (hb : ∀ c ∈ m.success, c.Fits b) (ret : m.Ret) :
    Reads (m.readResult ret) (p.text (m.resultReturned b) ++ p.text [.messageEnd])
      (m.received ret b, .returned) := by
  have hend : Reads (p.run .readMessageEnd) (p.text [.messageEnd]) () := p.reads .messageEnd
  rw [resultReturned, readResult, received]
  cases hsuccess : m.success with
  | some c =>
    have hone := @reads_one p (m.resultMembers c) m.ids_nodup
      (requiredIds_throwsMembers m.throws) (.here b) (hb c hsuccess) m.resultName (⟨ret, false⟩, (throwsMembers m.throws).init)
    exact hone.bind hend.bind_pure
  | none =>
    have hnone := reads_none m.ids_throws_nodup (requiredIds_throwsMembers m.throws) m.resultName
      (throwsMembers m.throws).init
    dsimp only
    rw [resultTokens, writeChosen_init]
    refine hnone.bind (hend.bind_pure.congr rfl ?_)
    rw [raised_init]

/-- **A call that threw** throws the same for the client, and leaves its object
alone. -/
theorem reads_thrown {e : E} {x : (throwsMembers m.throws).Given}
    (h : caught m.throws e = some x) (hx : x.Fits) (ret : m.Ret) :
    Reads (m.readResult ret) (p.text (m.resultThrown x) ++ p.text [.messageEnd])
      (ret, .threw e) := by
  have hend : Reads (p.run .readMessageEnd) (p.text [.messageEnd]) () := p.reads .messageEnd
  rw [resultThrown, readResult]
  cases hsuccess : m.success with
  | some c =>
    have hone := @reads_one p (m.resultMembers c) m.ids_nodup
      (requiredIds_throwsMembers m.throws) (.there x) hx m.resultName (⟨ret, false⟩, (throwsMembers m.throws).init)
    have hchosen : (m.resultMembers c).writeChosen
        (⟨c.init, false⟩, x.assign (throwsMembers m.throws).init) = x.tokens :=
      writeChosen_assign m.throws x
    dsimp only
    rw [resultTokens, hchosen]
    refine hone.bind (hend.bind_pure.congr rfl ?_)
    dsimp only
    rw [raised_put h]
    rfl
  | none =>
    have hone := reads_one m.ids_throws_nodup (requiredIds_throwsMembers m.throws) hx m.resultName
      (throwsMembers m.throws).init
    dsimp only
    rw [resultTokens, writeChosen_assign]
    refine hone.bind (hend.bind_pure.congr rfl ?_)
    rw [raised_put h]

/-- A result is skipped where it is not wanted. -/
theorem forms_resultReturned {b : m.Ret} (hb : ∀ c ∈ m.success, c.Fits b) :
    Forms (.value .struct) (m.resultReturned b) := by
  rw [resultReturned]
  cases hsuccess : m.success with
  | some c => exact @forms_one p (m.resultMembers c) (.here b) (hb c hsuccess) m.resultName
  | none =>
    dsimp only
    rw [resultTokens, writeChosen_init]
    exact .struct m.resultName .noFields

theorem forms_resultThrown {x : (throwsMembers m.throws).Given} (hx : x.Fits) :
    Forms (.value .struct) (m.resultThrown x) := by
  rw [resultThrown]
  cases hsuccess : m.success with
  | some c =>
    have hchosen : (m.resultMembers c).writeChosen
        (⟨c.init, false⟩, x.assign (throwsMembers m.throws).init) = x.tokens :=
      writeChosen_assign m.throws x
    dsimp only
    rw [resultTokens, hchosen]
    exact forms_one hx m.resultName
  | none =>
    dsimp only
    rw [resultTokens, writeChosen_assign]
    exact forms_one hx m.resultName

end Method

/-! ## Messages that are written and read -/

section Read

variable {S : Service p E} {xs : Exceptions p} {handler : Handler S σ}

/-- A structure that is passed over, with the end of its message. -/
theorem reads_passOver {m : Method p E} {body : List Token} (h : Forms (.value .struct) body)
    (ret : m.Ret) (type : ApplicationExceptionType) :
    Reads (m.passOver ret type) (p.text body ++ p.text [.messageEnd])
      (ret, .application ⟨type, []⟩) :=
  (p.reads (.skip h)).bind (p.reads .messageEnd).bind_pure

theorem tokens_replyTo (m : S.Name) (outcome : Outcome (S.method m).Ret E) :
    (replyTo handler m outcome).tokens xs = outcomeTokens xs handler m 0 outcome := by
  cases outcome with
  | returned b => rfl
  | thrown e =>
    rw [replyTo, outcomeTokens]
    split
    · next x h => rw [Reply.tokens, h]
    · next h => rw [Reply.tokens, h]

/-- **The processor answers a request.** -/
theorem reads_process {r : Request S} (hr : r.Fits xs handler) (s : σ) :
    Reads (process xs handler s) (p.text r.tokens)
      ((answerTo handler r s).1.tokens xs, (answerTo handler r s).2) := by
  have hend : Reads (p.run .readMessageEnd) (p.text [.messageEnd]) () := p.reads .messageEnd
  cases r with
  | call m args =>
    have hargs := (S.method m).args.reads (S.method m).args.init hr.1
    rw [Request.tokens, Method.send, Protocol.text_cons, Protocol.text_append, process]
    refine (Protocol.reads_encode (.messageBegin .call 0 (S.method m).name_fits)).bind ?_
    dsimp only
    rw [if_neg (fun h => h.1 rfl), processFn, S.find_name]
    dsimp only
    rw [processMethod]
    refine hargs.bind (hend.bind_pure.congr rfl ?_)
    rw [answerTo, tokens_replyTo]
  | other name type seqid body =>
    obtain ⟨⟨hname, hbody, htype⟩, -⟩ := hr
    have hbody' : Reads (p.run (.skip .struct)) (p.text body) () := p.reads (.skip hbody)
    rw [Request.tokens, Protocol.text_cons, Protocol.text_append, process]
    refine (Protocol.reads_encode (.messageBegin type seqid hname)).bind ?_
    dsimp only
    rw [answerTo]
    by_cases hcall : type ≠ .call ∧ type ≠ .oneway
    · rw [if_pos hcall, if_pos hcall]
      exact hbody'.bind hend.bind_pure
    · rw [if_neg hcall, if_neg hcall, processFn, htype.resolve_left hcall]
      exact hbody'.bind hend.bind_pure

/-- **The client reads a reply.** -/
theorem reads_recv {r : Reply S} (hr : r.Fits xs) (m : S.Name) (ret : (S.method m).Ret) :
    Reads ((S.method m).recv xs ret) (p.text (r.tokens xs)) (deliver m ret r) := by
  have hend : Reads (p.run .readMessageEnd) (p.text [.messageEnd]) () := p.reads .messageEnd
  have hname : ∀ {m'}, m' ≠ m → ascii (S.method m').name ≠ ascii (S.method m).name := by
    intro m' hne heq
    have hfind := S.find_name m'
    rw [heq, S.find_name] at hfind
    exact hne (Option.some.inj hfind).symm
  cases r with
  | returned m' b =>
    rw [Reply.tokens, replyTokens, Protocol.text_cons, Protocol.text_append, Method.recv]
    refine (Protocol.reads_encode (.messageBegin .reply 0 (S.method m').name_fits)).bind ?_
    dsimp only
    rw [if_neg (by decide), if_neg (fun h => h rfl), deliver]
    by_cases hm : m' = m
    · subst hm
      rw [if_neg (fun h => h rfl), dif_pos rfl]
      exact Method.reads_returned hr ret
    · rw [if_pos (hname hm), dif_neg hm]
      exact reads_passOver (Method.forms_resultReturned hr) ret _
  | threw m' e x h =>
    rw [Reply.tokens, replyTokens, Protocol.text_cons, Protocol.text_append, Method.recv]
    refine (Protocol.reads_encode (.messageBegin .reply 0 (S.method m').name_fits)).bind ?_
    dsimp only
    rw [if_neg (by decide), if_neg (fun h => h rfl), deliver]
    by_cases hm : m' = m
    · subst hm
      rw [if_neg (fun h => h rfl), if_pos rfl]
      exact Method.reads_thrown h hr ret
    · rw [if_pos (hname hm), if_neg hm]
      exact reads_passOver (Method.forms_resultThrown hr) ret _
  | exception name seqid x =>
    rw [Reply.tokens, exceptionTokens, Protocol.text_cons, Protocol.text_append, Method.recv]
    refine (Protocol.reads_encode (.messageBegin .exception seqid hr.1)).bind ?_
    have hx := xs.codec.reads xs.codec.init hr.2
    rw [xs.merge_init] at hx
    exact hx.bind hend.bind_pure

/-! ## Reading ends -/

theorem ends_passOver (m : Method p E) (ret : m.Ret) (type : ApplicationExceptionType) :
    Ends (m.passOver ret type) :=
  (p.ends _).bind fun _ => (p.ends _).bind fun _ => .pure _

theorem ends_readResult (m : Method p E) (ret : m.Ret) : Ends (m.readResult ret) := by
  rw [Method.readResult]
  cases m.success with
  | some c => exact (ends_struct _ _).bind fun _ => (p.ends _).bind fun _ => .pure _
  | none => exact (ends_struct _ _).bind fun _ => (p.ends _).bind fun _ => .pure _

/-- **A client stops reading**, whatever arrives. -/
theorem ends_recv (xs : Exceptions p) (m : Method p E) (ret : m.Ret) : Ends (m.recv xs ret) := by
  refine (p.ends _).bind fun message => ?_
  dsimp only
  split_ifs
  · exact (xs.codec.ends _).bind fun _ => (p.ends _).bind fun _ => .pure _
  · exact ends_passOver m ret _
  · exact ends_passOver m ret _
  · exact ends_readResult m ret

/-- **A processor stops reading**, whatever arrives. -/
theorem ends_process (xs : Exceptions p) (handler : Handler S σ) (s : σ) :
    Ends (process xs handler s) := by
  have hskip : ∀ result : List Token × σ, Ends (do
      p.run (.skip .struct)
      p.run .readMessageEnd
      return result) := fun result =>
    (p.ends _).bind fun _ => (p.ends _).bind fun _ => .pure result
  refine (p.ends _).bind fun message => ?_
  dsimp only
  split_ifs
  · exact hskip _
  · rw [processFn]
    cases S.find message.1 with
    | none => exact hskip _
    | some m => exact ((S.method m).args.ends _).bind fun _ => (p.ends _).bind fun _ => .pure _

end Read

end Thrift

end Supercell
