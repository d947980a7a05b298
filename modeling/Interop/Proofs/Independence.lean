import Interop.Json.OfValue
import Interop.Package
import Interop.Proofs.Conflict
import Interop.Proofs.Marshalling

/-
  Options do not matter but for what is displayed. A client
  asks for one thing after another, and may choose each by
  the answers so far, displayed texts aside. Under any two
  options it gets the same answers and failures, and the
  host ends in the same state. The logs are the same up to
  the events that render arguments.

  Rendering follows references only so often, so this holds
  on heaps with cycles too.

  Main declarations:
    * `Request`
    * `Request.run`
    * `Request.run_agree`
    * `Client.run`
    * `Client.run_independent`
-/

namespace Interop

------------------------------------------------------------
-- Members
------------------------------------------------------------

namespace Box

variable {hidden : Event → Bool}

/- Looking for a member does not depend on the log. -/
theorem field_agree
    (reg : Registry)
    (b : Box)
    (name : String) :
    Action.Agree hidden (b.field reg name)
      (b.field reg name) := by
  unfold field
  cases b.record? with
  | none => exact .pure none
  | some id =>
      simp only
      split
      · exact .bind .fresh fun _ => .pure _
      · split
        · exact .pure none
        · split
          · exact .pure none
          · apply Action.Agree.map
            unfold fieldAt
            split
            · exact .pure _
            · exact .bind (.fromHeap _) fun _ => .onHeap _

/- Neither does setting one. -/
theorem set_agree
    (s : Schema)
    (b : Box)
    (name : String)
    (v : Value) :
    Action.Agree hidden (b.set s name v) (b.set s name v) := by
  rcases set_cases s b name v with
    ⟨e, hError, hSet⟩ | ⟨index, t, hSet⟩
  · rw [hSet]
    exact .fail e
  · rw [hSet]
    exact .bind (t.exportAs_agree v) fun _ => .changeHeap _

end Box

------------------------------------------------------------
-- Calls
------------------------------------------------------------

namespace Callable

variable {hidden : Event → Bool}

/- Host code does not see the log. -/
theorem runTarget_agree
    (s : Schema)
    (target : Target)
    (args : List HostValue) :
    Action.Agree hidden (runTarget s target args)
      (runTarget s target args) := by
  cases target with
  | free body => exact .onHost _
  | bound body receiver =>
      simp only [runTarget]
      split
      · refine Action.Agree.bind (.fromHeap _) ?_
        intro content
        refine Action.Agree.bind (.onHost _) ?_
        intro scratch
        refine Action.Agree.bind (.onHost _) ?_
        intro outputs
        refine Action.Agree.bind (.fromHeap _) ?_
        intro updated
        exact .bind (.changeHeap _) fun _ => .pure outputs
      · exact .onHost _

/- What the error slot says does not depend on the log. -/
theorem settle_agree
    (c : Callable)
    (outputs : List HostValue) :
    Action.Agree hidden (c.settle outputs)
      (c.settle outputs) := by
  unfold settle
  split
  · split
    · exact .pure _
    · exact .bind (.emit _) fun _ => .fail _
    · exact .fail _
    · exact .fail _
  · exact .pure _

/- Nor does what a run of host code comes to. -/
theorem invoke_agree
    (s : Schema)
    (c : Callable)
    (args : List HostValue) :
    Action.Agree hidden (c.invoke s args) (c.invoke s args) := by
  refine Action.Agree.bind (runTarget_agree s _ args) ?_
  intro outputs
  unfold unmarshal
  split
  · refine Action.Agree.bind (settle_agree c outputs) ?_
    intro results
    refine Action.Agree.bind (.onHeap _) ?_
    intro values
    exact .pure (gather values)
  · exact .fail _

/-
  Marshalling under other options differs in the events that
  render arguments.
-/
theorem marshal_agree_options
    (s : Schema)
    (options options' : Options)
    (c : Callable)
    (left : Option Value)
    (right : Value) :
    Action.Agree Event.isArguments
      (c.marshal s options left right)
      (c.marshal s options' left right) := by
  have hHidden : ∀ options args heap (w : World),
      World.Alike Event.isArguments w
        (w.logging (argumentEvents s options c args heap)) := by
    intro options args heap w
    unfold argumentEvents
    split
    · exact .logging_hidden rfl w
    · exact ⟨rfl, rfl, by simp [World.shown, World.logging]⟩
  apply marshal_agree
  · intro w
    exact .refl _
  · rfl
  · intro args heap w
    exact (hHidden options args heap w).symm.trans
      (hHidden options' args heap w)

end Callable

/- Allocating an object does not depend on the log. -/
theorem HostType.construct_agree
    {hidden : Event → Bool}
    (s : Schema)
    (t : HostType) :
    Action.Agree hidden (t.construct s) (t.construct s) := by
  unfold construct
  split
  · refine Action.Agree.bind (.emit _) ?_
    intro u
    refine Action.Agree.bind (.onHost _) ?_
    intro h
    exact .pure _
  · exact .fail _

/- Functions of each kind end the same way. -/
theorem Function.apply_agree
    (s : Schema)
    (options options' : Options)
    (f : Function)
    (left : Option Value)
    (right : Value) :
    Action.Agree Event.isArguments
      (f.apply s options left right)
      (f.apply s options' left right) := by
  cases f with
  | callable c =>
      exact .bind
        (Callable.marshal_agree_options s options options' c _ _)
        fun args => Callable.invoke_agree s c args
  | constructor t => exact .map (t.construct_agree s)
  | pairing name => exact .pure _

------------------------------------------------------------
-- Packages
------------------------------------------------------------

/- A registration logs what it does, whatever was logged. -/
theorem Package.register_agree
    {hidden : Event → Bool}
    (p : Package)
    (name : String)
    (v : Value) :
    Action.Agree hidden (p.register name v)
      (p.register name v) := by
  refine Action.Agree.bind (.emit _) ?_
  intro u
  split
  · exact .bind (.emit _) fun _ => .pure _
  · exact .pure _

------------------------------------------------------------
-- Requests
------------------------------------------------------------

/-
  What a client can ask the bridge for. In between, the host
  may run by itself, and lend objects or take them back.
-/
inductive Request where
| host (change : Host → Host) : Request
| exportAs (t : HostType) (v : Value) : Request
| importAs (t : HostType) (h : HostValue) : Request
| field (b : Box) (name : String) : Request
| set (b : Box) (name : String) (v : Value) : Request
| bind (name : String) (m : Method) (b : Box) : Request
| marshal (c : Callable) (left : Option Value) (right : Value) :
    Request
| invoke (c : Callable) (args : List HostValue) : Request
| call (f : Function) (left : Option Value) (right : Value) :
    Request
| construct (t : HostType) : Request
| toJson (v : Value) : Request
| registerFunction
    (p : Package)
    (name : String)
    (sig : Signature)
    (body : HostFunction) : Request
| registerConstructor (p : Package) (name : String) (t : HostType) :
    Request
| registerConstant
    (p : Package)
    (name : String)
    (h : HostValue)
    (t : HostType) : Request
| display (v : Value) : Request

/- What a client is told. -/
inductive Answer where
| done : Answer
| hosted (values : List HostValue) : Answer
| found (values : List Value) : Answer
| package (p : Package) : Answer
| json (document : Json) : Answer
| displayed (text : String) : Answer

/- The answer without the text of a display. -/
def Answer.blind : Answer → Answer
| .displayed _ => .displayed ""
| answer => answer

/- Answer a request. -/
def Request.run
    (reg : Registry)
    (options : Options) : Request → Action Answer
| .host change =>
    (fun _ => .done) <$>
      Action.onHost fun host => ((), change host)
| .exportAs t v =>
    (fun h => .hosted [h]) <$> t.exportAs reg.schema v
| .importAs t h =>
    (fun v => .found [v]) <$>
      Action.onHeap (t.importAs reg.schema h)
| .field b name =>
    (fun v => .found v.toList) <$> b.field reg name
| .set b name v =>
    (fun _ => .done) <$> b.set reg.schema name v
| .bind name m b => do
    let identity ← Action.fresh
    pure (.found [.function identity (.callable (.bind name m b))])
| .marshal c left right =>
    .hosted <$> c.marshal reg.schema options left right
| .invoke c args =>
    (fun v => .found [v]) <$> c.invoke reg.schema args
| .call f left right =>
    (fun v => .found [v]) <$> f.apply reg.schema options left right
| .construct t =>
    (fun b => .found [.boxed b]) <$> t.construct reg.schema
| .toJson v =>
    .json <$> Action.ofExcept (v.toJson reg.schema)
| .registerFunction p name sig body =>
    .package <$> p.function name sig body
| .registerConstructor p name t =>
    .package <$> p.constructor name t
| .registerConstant p name h t =>
    .package <$> p.constant reg.schema name h t
| .display v =>
    Action.fromHeap fun heap =>
      .ok (.displayed
        (v.text reg.schema options.displayLimit heap))

/-
  A request gets the same answer under any options, but for a
  displayed text, and leaves the same host.
-/
theorem Request.run_agree
    (reg : Registry)
    (options options' : Options)
    (request : Request) :
    Action.Agree Event.isArguments
      (Answer.blind <$> request.run reg options)
      (Answer.blind <$> request.run reg options') := by
  cases request with
  | host change => exact .map (.map (.onHost _))
  | exportAs t v => exact .map (.map (t.exportAs_agree v))
  | importAs t h => exact .map (.map (.onHeap _))
  | field b name => exact .map (.map (b.field_agree reg name))
  | set b name v =>
      exact .map (.map (b.set_agree reg.schema name v))
  | bind name m b =>
      exact .map (.bind .fresh fun _ => .pure _)
  | marshal c left right =>
      exact .map (.map
        (c.marshal_agree_options reg.schema options options' left
          right))
  | invoke c args =>
      exact .map (.map (c.invoke_agree reg.schema args))
  | call f left right =>
      exact .map (.map
        (f.apply_agree reg.schema options options' left right))
  | construct t =>
      exact .map (.map (t.construct_agree reg.schema))
  | toJson v => exact .map (.map (.ofExcept _))
  | registerFunction p name sig body =>
      exact .map (.map
        (.bind .fresh fun _ => p.register_agree name _))
  | registerConstructor p name t =>
      exact .map (.map
        (.bind .fresh fun _ => p.register_agree name _))
  | registerConstant p name h t =>
      exact .map (.map
        (.bind (.onHeap _) fun _ => p.register_agree name _))
  | display v =>
      exact .of_host (fun host => (.ok (.displayed ""), host))
        fun _ => rfl

------------------------------------------------------------
-- Clients
------------------------------------------------------------

/-
  A client picks the next request by the answers and failures
  so far, of which it does not see displayed texts.
-/
abbrev Client :=
  List (Except Error Answer) → Request

namespace Client

/- The answers without displayed texts. -/
def blinded
    (answers : List (Except Error Answer)) :
    List (Except Error Answer) :=
  answers.map fun answer => answer.map Answer.blind

/-
  The answers to the first requests of a client, and the
  world that these leave. A failure does not end the client.
-/
def run
    (reg : Registry)
    (options : Options)
    (client : Client)
    (w : World) : Nat → List (Except Error Answer) × World
| 0 => ([], w)
| n + 1 =>
    let (answers, w₁) := client.run reg options w n
    let (answer, w₂) :=
      (client (blinded answers)).run reg options w₁
    (answers ++ [answer], w₂)

/- What one more request adds. -/
theorem run_succ
    (reg : Registry)
    (options : Options)
    (client : Client)
    (w : World)
    (n : Nat) :
    let before := client.run reg options w n
    let last :=
      (client (blinded before.1)).run reg options before.2
    client.run reg options w (n + 1) =
      (before.1 ++ [last.1], last.2) := rfl

/- The last answer is blinded as the others are. -/
theorem blinded_append
    (answers : List (Except Error Answer))
    (answer : Except Error Answer) :
    blinded (answers ++ [answer]) =
      blinded answers ++ [answer.map Answer.blind] := by
  simp [blinded]

/-
  Two runs stay in step: the client has seen the same answers
  in both, so it asks for the same in worlds that are alike.
-/
theorem run_alike
    (reg : Registry)
    (options options' : Options)
    (client : Client)
    (w : World)
    (n : Nat) :
    let one := client.run reg options w n
    let other := client.run reg options' w n
    blinded one.1 = blinded other.1 ∧
      World.Alike Event.isArguments one.2 other.2 := by
  induction n with
  | zero => exact ⟨rfl, .refl w⟩
  | succ n ih =>
      rcases ih with ⟨hSame, hAlike⟩
      have hStep :=
        Request.run_agree reg options options'
          (client (blinded (client.run reg options w n).1))
          _ _ hAlike
      simp only [Action.map_apply] at hStep
      simp only [run_succ, blinded_append]
      rw [← hSame]
      exact ⟨by rw [hStep.1], hStep.2⟩

/-
  Whatever a client does, options make no difference to it:
  after any number of requests it has had the same answers
  and failures, displayed texts aside, and the host is in the
  same state, loans included. The same events were logged,
  but for those that render arguments.
-/
theorem run_independent
    (reg : Registry)
    (options options' : Options)
    (client : Client)
    (w : World)
    (n : Nat) :
    let one := client.run reg options w n
    let other := client.run reg options' w n
    blinded one.1 = blinded other.1 ∧
      one.2.host = other.2.host ∧
      one.2.identities = other.2.identities ∧
      (one.2.log.filter fun e => !e.isArguments) =
        other.2.log.filter fun e => !e.isArguments := by
  intro one other
  rcases run_alike reg options options' client w n with
    ⟨hSame, hAlike⟩
  exact ⟨hSame, hAlike.host, hAlike.identities, hAlike.shown⟩

end Client

end Interop
