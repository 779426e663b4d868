import Supercell.Thrift.Service

/-!
# Thrift — connections

A client and a processor at the two ends of a connection. The client may send
several calls before it reads the first reply, and read replies while others
are on their way; what it reads in the end depends on none of this. Replies
are those that a processor would give that answers one request after the
other, and none is lost, doubled or overtaken.
-/

namespace Supercell

namespace Thrift

variable {p : Protocol} {E σ : Type}

/-- **A connection**: what has been sent and not yet been read, in both
directions, and the state of the handler. -/
structure Connection (σ : Type) where
  requests : Bytes
  replies : Bytes
  state : σ

/-- A step of the client or of the processor. -/
inductive Action (S : Service p E)
  | send (r : Request S)
  | serve
  | recv (m : S.Name) (ret : (S.method m).Ret)

/-- What a `recv` leaves in the object of its caller, and how it ends. -/
structure Received (S : Service p E) where
  name : S.Name
  object : (S.method name).Ret
  answer : Answer E

namespace Connection

variable {S : Service p E} (xs : Exceptions p) (handler : Handler S σ)

/-- **A step.** -/
def step : Action S → Connection σ → Except Failure (Connection σ × List (Received S))
  | .send r, c => .ok ({ c with requests := c.requests ++ p.text r.tokens }, [])
  | .serve, c => do
    let ((reply, s), rest) ← process xs handler c.state c.requests
    return ({ requests := rest, replies := c.replies ++ p.text reply, state := s }, [])
  | .recv m ret, c => do
    let ((object, answer), rest) ← (S.method m).recv xs ret c.replies
    return ({ c with replies := rest }, [⟨m, object, answer⟩])

/-- **A run**, with what the client has received in it. -/
def run : List (Action S) → Connection σ → Except Failure (Connection σ × List (Received S))
  | [], c => .ok (c, [])
  | a :: as, c => do
    let (c, received) ← step xs handler a c
    let (c, more) ← run as c
    return (c, received ++ more)

end Connection

/-! ## What a run asks for -/

section Runs

variable {S : Service p E}

/-- The requests that are sent. -/
def sent : List (Action S) → List (Request S)
  | [] => []
  | .send r :: as => r :: sent as
  | .serve :: as => sent as
  | .recv .. :: as => sent as

/-- The replies that are waited for. -/
def awaited : List (Action S) → List (Σ m, (S.method m).Ret)
  | [] => []
  | .send _ :: as => awaited as
  | .serve :: as => awaited as
  | .recv m ret :: as => ⟨m, ret⟩ :: awaited as

/-- Nothing is read before it has been written, with so many requests and
replies on their way. -/
def Enabled : List (Action S) → ℕ → ℕ → Prop
  | [], _, _ => True
  | .send _ :: as, n, k => Enabled as (n + 1) k
  | .serve :: as, n + 1, k => Enabled as n (k + 1)
  | .serve :: _, 0, _ => False
  | .recv .. :: as, n, k + 1 => Enabled as n k
  | .recv .. :: _, _, 0 => False

/-- What is received of a reply. -/
def receivedOf (a : Σ m, (S.method m).Ret) (r : Reply S) : Received S :=
  ⟨a.1, (deliver a.1 a.2 r).1, (deliver a.1 a.2 r).2⟩

end Runs

/-! ## Runs are queues -/

section Wire

variable {S : Service p E} (xs : Exceptions p) (handler : Handler S σ)

/-- A connection with these messages on their way. -/
def wire (requests : List (Request S)) (replies : List (Reply S)) (s : σ) : Connection σ where
  requests := p.text (requests.flatMap Request.tokens)
  replies := p.text (replies.flatMap (Reply.tokens xs))
  state := s

variable {xs handler} (requests : List (Request S)) (replies : List (Reply S)) (s : σ)

theorem step_send (r : Request S) :
    Connection.step xs handler (.send r) (wire xs requests replies s) =
      .ok (wire xs (requests ++ [r]) replies s, []) := by
  rw [Connection.step, wire, wire, List.flatMap_append, Protocol.text_append, List.flatMap_cons,
    List.flatMap_nil, List.append_nil]

/-- **The processor takes the first request** and puts its answer behind the
last reply. -/
theorem step_serve {r : Request S} (hr : r.Fits xs handler) :
    Connection.step xs handler .serve (wire xs (r :: requests) replies s) =
      .ok (wire xs requests (replies ++ [(answerTo handler r s).1]) (answerTo handler r s).2, []) := by
  have hread := reads_process hr s (p.text (requests.flatMap Request.tokens))
  rw [← Protocol.text_append, ← List.flatMap_cons] at hread
  have hreplies : p.text ((replies ++ [(answerTo handler r s).1]).flatMap (Reply.tokens xs)) =
      p.text (replies.flatMap (Reply.tokens xs)) ++ p.text ((answerTo handler r s).1.tokens xs) := by
    rw [List.flatMap_append, Protocol.text_append, List.flatMap_cons, List.flatMap_nil,
      List.append_nil]
  rw [Connection.step, wire, wire, hreplies]
  dsimp only
  rw [hread]
  rfl

/-- **The client takes the first reply.** -/
theorem step_recv {r : Reply S} (hr : r.Fits xs) (m : S.Name) (ret : (S.method m).Ret) :
    Connection.step xs handler (.recv m ret) (wire xs requests (r :: replies) s) =
      .ok (wire xs requests replies s, [receivedOf ⟨m, ret⟩ r]) := by
  have hread := reads_recv hr m ret (p.text (replies.flatMap (Reply.tokens xs)))
  rw [← Protocol.text_append, ← List.flatMap_cons] at hread
  rw [Connection.step, wire, wire]
  dsimp only
  rw [hread]
  rfl

/-- The first step of a run. -/
theorem run_cons {a : Action S} {as : List (Action S)} {c c' c'' : Connection σ}
    {received more : List (Received S)} (h : Connection.step xs handler a c = .ok (c', received))
    (hrest : Connection.run xs handler as c' = .ok (c'', more)) :
    Connection.run xs handler (a :: as) c = .ok (c'', received ++ more) := by
  rw [Connection.run, h]
  change (Connection.run xs handler as c' >>= fun q => .ok (q.1, received ++ q.2)) = _
  rw [hrest]
  rfl

/-- **Runs.** Whatever the order of the steps, the client receives what one
answer after the other makes of its requests, and what it has not received is
still on its way. -/
theorem run_wire {as : List (Action S)} (hrequests : ∀ r ∈ requests ++ sent as, r.Fits xs handler)
    (hreplies : ∀ r ∈ replies, r.Fits xs)
    (henabled : Enabled as requests.length replies.length) :
    ∃ requests' replies' s',
      Connection.run xs handler as (wire xs requests replies s) =
        .ok (wire xs requests' replies' s', List.zipWith receivedOf (awaited as)
          (replies ++ answersTo handler (requests ++ sent as) s)) ∧
      replies' ++ answersTo handler requests' s' =
        (replies ++ answersTo handler (requests ++ sent as) s).drop (awaited as).length ∧
      (awaited as).length ≤ (replies ++ answersTo handler (requests ++ sent as) s).length := by
  induction as generalizing requests replies s with
  | nil =>
    refine ⟨requests, replies, s, rfl, ?_, Nat.zero_le _⟩
    rw [sent, awaited, List.append_nil, List.length_nil, List.drop_zero]
  | cons a as ih =>
    cases a with
    | send r =>
      have hlater : (requests ++ [r]) ++ sent as = requests ++ sent (.send r :: as) :=
        List.append_assoc _ _ _
      obtain ⟨requests', replies', s', hrun, hleft, hcount⟩ := ih (requests ++ [r]) replies s
        (by rwa [hlater]) hreplies (by rwa [List.length_append])
      rw [hlater] at hrun hleft hcount
      exact ⟨requests', replies', s', run_cons (step_send requests replies s r) hrun, hleft, hcount⟩
    | serve =>
      cases requests with
      | nil => exact henabled.elim
      | cons r requests =>
        have hr := hrequests r List.mem_cons_self
        have hlater : (replies ++ [(answerTo handler r s).1]) ++
            answersTo handler (requests ++ sent as) (answerTo handler r s).2 =
            replies ++ answersTo handler (r :: requests ++ sent (.serve :: as)) s :=
          List.append_assoc _ _ _
        obtain ⟨requests', replies', s', hrun, hleft, hcount⟩ :=
          ih requests (replies ++ [(answerTo handler r s).1]) (answerTo handler r s).2
            (fun r' hr' => hrequests r' (List.mem_cons_of_mem r hr'))
            (fun r' hr' => by
              rcases List.mem_append.1 hr' with hr' | hr'
              · exact hreplies r' hr'
              · rw [List.mem_singleton.1 hr']
                exact hr.2 s)
            (by rwa [List.length_append])
        rw [hlater] at hrun hleft hcount
        exact ⟨requests', replies', s', run_cons (step_serve requests replies s hr) hrun, hleft, hcount⟩
    | recv m ret =>
      cases replies with
      | nil => exact henabled.elim
      | cons r replies =>
        obtain ⟨requests', replies', s', hrun, hleft, hcount⟩ := ih requests replies s hrequests
          (fun r' hr' => hreplies r' (List.mem_cons_of_mem r hr')) henabled
        exact ⟨requests', replies', s',
          run_cons (step_recv requests replies s (hreplies r List.mem_cons_self) m ret) hrun, hleft,
          Nat.succ_le_succ hcount⟩

/-! ## Calls one after the other -/

/-- A method with its arguments, and the object for what it returns. -/
structure Call (S : Service p E) where
  name : S.Name
  args : (S.method name).Args
  ret : (S.method name).Ret

/-- The method of the client: `send`, and then `recv`, with the processor in
between. -/
def Call.actions (c : Call S) : List (Action S) :=
  [.send (.call c.name c.args), .serve, .recv c.name c.ret]

/-- The handler does not look at what of its arguments is not written. -/
def Handler.Respects (handler : Handler S σ) : Prop :=
  ∀ (m : S.Name) {args args' : (S.method m).Args} (s : σ), (S.method m).args.Same args args' →
    handler.handle m args s = handler.handle m args' s

/-- **A call without a connection**: the handler is called with the arguments
themselves, and what it throws is what the caller catches, or its text. -/
def localCall (handler : Handler S σ) (c : Call S) (s : σ) : Received S × σ :=
  match handler.handle c.name c.args s with
  | (.returned b, s') => (⟨c.name, (S.method c.name).received c.ret b, .returned⟩, s')
  | (.thrown e, s') =>
    (⟨c.name, c.ret, if (caught (S.method c.name).throws e).isSome then .threw e
      else .application ⟨.unknown, handler.what e⟩⟩, s')

/-- Calls without a connection, one after the other. -/
def localCalls (handler : Handler S σ) : List (Call S) → σ → List (Received S) × σ
  | [], s => ([], s)
  | c :: cs, s =>
    let (received, s') := localCall handler c s
    let (more, s'') := localCalls handler cs s'
    (received :: more, s'')

/-- A call over a connection ends as it does without one. -/
theorem receivedOf_answerTo (hrespects : handler.Respects) (c : Call S) (s : σ) :
    receivedOf ⟨c.name, c.ret⟩ (answerTo handler (.call c.name c.args) s).1 =
        (localCall handler c s).1 ∧
      (answerTo handler (.call c.name c.args) s).2 = (localCall handler c s).2 := by
  have hargs := hrespects c.name s ((S.method c.name).args.same_merge_init c.args)
  rw [answerTo, localCall, hargs]
  rcases handler.handle c.name c.args s with ⟨b | e, s'⟩
  · refine ⟨?_, rfl⟩
    dsimp only
    rw [replyTo, receivedOf, deliver, dif_pos rfl]
  · refine ⟨?_, rfl⟩
    dsimp only
    rw [replyTo]
    split
    · next x h => rw [receivedOf, deliver, if_pos rfl, h]; rfl
    · next h => rw [receivedOf, deliver, h]; rfl

/-- **Remote calls are as local ones.** -/
theorem run_calls (hrespects : handler.Respects) {cs : List (Call S)}
    (hfits : ∀ c ∈ cs, (Request.call c.name c.args).Fits xs handler) (s : σ) :
    Connection.run xs handler (cs.flatMap Call.actions) ⟨[], [], s⟩ =
      .ok (⟨[], [], (localCalls handler cs s).2⟩, (localCalls handler cs s).1) := by
  induction cs generalizing s with
  | nil => rfl
  | cons c cs ih =>
    have hc := hfits c List.mem_cons_self
    obtain ⟨hreceived, hstate⟩ := receivedOf_answerTo hrespects c s
    have hrest := ih (fun c' hc' => hfits c' (List.mem_cons_of_mem c hc')) (localCall handler c s).2
    rw [← hstate] at hrest
    have hrecv := run_cons (step_recv [] [] _ (hc.2 s) c.name c.ret) hrest
    rw [hreceived] at hrecv
    have hserve := run_cons (step_serve [] [] s hc) hrecv
    have hlocal : localCalls handler (c :: cs) s = ((localCall handler c s).1 ::
        (localCalls handler cs (localCall handler c s).2).1,
        (localCalls handler cs (localCall handler c s).2).2) := rfl
    rw [hstate] at hserve
    rw [hlocal]
    exact run_cons (step_send [] [] s (.call c.name c.args)) hserve

end Wire

end Thrift

end Supercell
