import Interop.Proofs.Filled.Actions
import Interop.Proofs.Independence

/-
  Runs in which records are made and changed by public means
  only. Host code may put any value that it has at any place,
  of whatever type, but it cannot make a record other than by
  counting its values, by zeroing it, or from a record that
  is there. All scenes of such a run are filled.

  The steps of host code are told apart from the functions
  that run it. A function stands for host code if, wherever
  it is started, it ends in a scene to which such steps lead.

  Main declarations:
    * `Request.run_keepsFilled`
    * `Scene.Makes`
    * `Scene.Step`
    * `Scene.Becomes`
    * `Scene.Becomes.ask`
    * `Scene.IsFilled`
    * `Scene.Step.isFilled`
    * `Scene.Becomes.isFilled`
-/

namespace Interop

variable {s : Schema}

------------------------------------------------------------
-- Requests
------------------------------------------------------------

/- Functions that run no host code add objects at most. -/
theorem Function.apply_keepsFilled
    {left : Option Value}
    {right : Value}
    (options : Options)
    (f : Function)
    (hCode : ∀ c, f = .callable c →
      ∀ body, c.target.MayRun body → body.KeepsFilled s)
    (hLeft : ∀ v, left = some v →
      ∀ e, v.Carries e → e.KeepsFilled s)
    (hRight : ∀ e, right.Carries e → e.KeepsFilled s) :
    Action.KeepsFilled s (f.apply s options left right)
      fun _ => True := by
  cases f with
  | callable c =>
      exact c.call_keepsFilled options (hCode c rfl) hLeft hRight
  | constructor t => exact .map t.construct_keepsFilled
  | pairing name => exact .pure trivial

/- A registration is nothing to the host. -/
theorem Package.register_keepsFilled
    (p : Package)
    (name : String)
    (v : Value) :
    Action.KeepsFilled s (p.register name v) fun _ => True := by
  refine Action.KeepsFilled.bind (.emit _) ?_
  intro u hLogged
  split
  · exact .bind (.emit _) fun _ _ => .pure trivial
  · exact .pure trivial

namespace Request

/- The values that a request has exported. -/
def operands : Request → List Value
| .exportAs _ v | .set _ _ v => [v]
| .marshal _ left right | .call _ left right =>
    left.toList ++ [right]
| _ => []

/- The host values that a request hands over. -/
def handed : Request → List HostValue
| .importAs _ h | .registerConstant _ _ h _ => [h]
| .invoke _ args => args
| _ => []

/- A domain value may be asked for its host form. -/
def Presents
    (request : Request)
    (e : Exportable) : Prop :=
  ∃ v ∈ request.operands, v.Carries e

/- The function may be run, on whatever receiver. -/
def Calls : Request → HostFunction → Prop
| .invoke c _, body | .call (.callable c) _ _, body =>
    c.target.MayRun body
| _, _ => False

end Request

/- The host values that an answer tells. -/
def Answer.told : Answer → List HostValue
| .hosted values => values
| _ => []

/- An answer without host values adds nothing to be filled. -/
theorem Answer.keepsFilled_map
    {α : Type}
    {x : Action α}
    {answer : α → Answer}
    (hTold : ∀ a, (answer a).told = [])
    (hKeeps : Action.KeepsFilled s x fun _ => True) :
    Action.KeepsFilled s (answer <$> x)
      fun answer => AllFilled s answer.told := by
  refine .map (hKeeps.weaken ?_)
  intro a hDone
  rw [hTold a]
  exact allFilled_nil s

/-
  Whatever the bridge is asked for, it keeps hosts filled if
  the host code does that it runs, and what it tells is
  filled.
-/
theorem Request.run_keepsFilled
    {reg : Registry}
    {request : Request}
    (options : Options)
    (hSchema : reg.schema = s)
    (hBridge : ∀ change, request ≠ .host change)
    (hHanded : AllFilled s request.handed)
    (hForms : ∀ e, request.Presents e → e.KeepsFilled s)
    (hCode : ∀ body, request.Calls body → body.KeepsFilled s) :
    Action.KeepsFilled s (request.run reg options)
      fun answer => AllFilled s answer.told := by
  subst hSchema
  have hOperand :
      ∀ v ∈ request.operands,
        ∀ e, v.Carries e → e.KeepsFilled reg.schema :=
    fun v hMem e hCarries => hForms e ⟨v, hMem, hCarries⟩
  cases request with
  | host change => exact absurd rfl (hBridge change)
  | exportAs t v =>
      have hExport : Action.KeepsFilled reg.schema
          (t.exportAs reg.schema v) (·.IsFilled reg.schema) :=
        t.exportAs_keepsFilled (hOperand v List.mem_cons_self)
      exact .map (hExport.weaken fun h hFilled =>
        List.forall_mem_singleton.mpr hFilled)
  | importAs t h =>
      exact Answer.keepsFilled_map (fun _ => rfl)
        (t.importAs_keepsFilled (hHanded h List.mem_cons_self))
  | field b name =>
      exact Answer.keepsFilled_map (fun _ => rfl)
        (b.field_keepsFilled rfl name)
  | set b name v =>
      exact Answer.keepsFilled_map (fun _ => rfl)
        (b.set_keepsFilled name (hOperand v List.mem_cons_self))
  | bind name m b =>
      exact .bind .fresh fun _ _ => .pure (allFilled_nil _)
  | marshal c left right =>
      refine .map (c.marshal_keepsFilled options ?_ ?_)
      · rintro v rfl
        exact hOperand v (by simp [operands])
      · exact hOperand right (by simp [operands])
  | invoke c args =>
      exact Answer.keepsFilled_map (fun _ => rfl)
        (c.invoke_keepsFilled hCode hHanded)
  | call f left right =>
      refine Answer.keepsFilled_map (fun _ => rfl)
        (f.apply_keepsFilled options ?_ ?_ ?_)
      · rintro c rfl
        exact hCode
      · rintro v rfl
        exact hOperand v (by simp [operands])
      · exact hOperand right (by simp [operands])
  | construct t =>
      exact Answer.keepsFilled_map (fun _ => rfl)
        t.construct_keepsFilled
  | toJson v =>
      exact Answer.keepsFilled_map (fun _ => rfl)
        (.ofExcept fun _ _ => trivial)
  | registerFunction p name sig body =>
      exact Answer.keepsFilled_map (fun _ => rfl)
        (.bind .fresh fun _ _ => p.register_keepsFilled name _)
  | registerConstructor p name t =>
      exact Answer.keepsFilled_map (fun _ => rfl)
        (.bind .fresh fun _ _ => p.register_keepsFilled name _)
  | registerConstant p name h t =>
      exact Answer.keepsFilled_map (fun _ => rfl)
        (.bind
          (t.importAs_keepsFilled (hHanded h List.mem_cons_self))
          fun v _ => p.register_keepsFilled name v)
  | display v =>
      apply Action.KeepsFilled.fromHeap
      intro heap hHeap answer hOk
      cases hOk
      exact allFilled_nil _

------------------------------------------------------------
-- Scenes
------------------------------------------------------------

/- A host, and the host values that are at hand. -/
structure Scene where
  host : Host
  held : List HostValue

namespace Scene

/- Nothing has happened, and nothing is at hand. -/
def initial : Scene :=
  ⟨.initial, []⟩

/- The scene with other objects. -/
def withHeap
    (scene : Scene)
    (heap : Heap) : Scene :=
  { scene with host := { scene.host with heap } }

/-
  The values that can be made of what is at hand. Nothing is
  used up, so a value that is at hand may be cloned. Values
  without parts are made of nothing; a record is counted when
  it is built, and afterwards any value may be put into it,
  or written to a place inside it.
-/
inductive Makes
    (s : Schema)
    (scene : Scene) : HostValue → Prop where
| plain
    {v : HostValue}
    (hNoSeq : ∀ items, v ≠ .seq items)
    (hNoRecord : ∀ id values, v ≠ .record id values) :
    Makes s scene v
| seq
    {items : List HostValue}
    (hItems : ∀ v ∈ items, v ∈ scene.held) :
    Makes s scene (.seq items)
| item
    {items : List HostValue}
    {v : HostValue}
    (hSeq : .seq items ∈ scene.held)
    (hItem : v ∈ items) :
    Makes s scene v
| build
    {id : RecordId}
    {values : List HostValue}
    {r : HostRecord}
    (hValues : ∀ v ∈ values, v ∈ scene.held)
    (hBuild :
      HostRecord.build s scene.host.heap id values = .ok r) :
    Makes s scene r.toValue
| zero
    (t : HostType) :
    Makes s scene (t.zero s)
| zeroed
    (id : RecordId) :
    Makes s scene (HostRecord.zeroed s id).toValue
| get
    {r : HostRecord}
    {name : String}
    {v : HostValue}
    (hRecord : r.toValue ∈ scene.held)
    (hGet : r.get? s name = some v) :
    Makes s scene v
| field
    {r : HostRecord}
    {index : Nat}
    {v : HostValue}
    (hRecord : r.toValue ∈ scene.held)
    (hAt : r.at? index = some v) :
    Makes s scene v
| put
    {r r' : HostRecord}
    {index : Nat}
    {v : HostValue}
    (hRecord : r.toValue ∈ scene.held)
    (hValue : v ∈ scene.held)
    (hPut : r.put? index v = some r') :
    Makes s scene r'.toValue
| inPlace
    {u v : HostValue}
    (path : List Nat)
    (hWhole : u ∈ scene.held)
    (hValue : v ∈ scene.held) :
    Makes s scene (.replaceAt path v u)
| content
    (h : Handle) :
    Makes s scene (scene.host.heap.content h)
| global
    {name : String}
    {v : HostValue}
    (hGlobal : scene.host.global? name = some v) :
    Makes s scene v

/-
  What host code can do by itself. Boxes may have any object,
  path and tag. Who has an object as its writer may write to
  any place in it, whoever else asks for it.
-/
inductive Step
    (s : Schema)
    (scene : Scene) : Scene → Prop where
| hold
    {v : HostValue}
    (hMakes : scene.Makes s v) :
    Step s scene { scene with held := v :: scene.held }
| alloc
    {v : HostValue}
    (hHeld : v ∈ scene.held) :
    Step s scene { scene with host := (scene.host.alloc v).2 }
| write
    {b : Box}
    {v : HostValue}
    {heap : Heap}
    (hHeld : v ∈ scene.held)
    (hWrite : b.write s scene.host.heap v = .ok heap) :
    Step s scene (scene.withHeap heap)
| putField
    {b : Box}
    {index : Nat}
    {v : HostValue}
    {heap : Heap}
    (hHeld : v ∈ scene.held)
    (hPut : b.putField s scene.host.heap index v = .ok heap) :
    Step s scene (scene.withHeap heap)
| overwrite
    {v : HostValue}
    (h : Handle)
    (path : List Nat)
    (hHeld : v ∈ scene.held) :
    Step s scene
      (scene.withHeap (scene.host.heap.putAt h path v))
| lend
    (h : Handle)
    (l : Loan) :
    Step s scene
      (scene.withHeap (scene.host.heap.setLoan h l))
| assign
    {v : HostValue}
    (name : String)
    (hHeld : v ∈ scene.held) :
    Step s scene
      { scene with host := scene.host.setGlobal name v }
| forget
    (name : String) :
    Step s scene
      { scene with host := scene.host.unsetGlobal name }
| raise
    (report : Report) :
    Step s scene
      { scene with host := (scene.host.raise report).2 }

/- The world of a scene. -/
def world
    (scene : Scene)
    (log : List Event)
    (identities : Nat) : World :=
  ⟨scene.host, log, identities⟩

/-
  What a request leaves: its changes, and what it has told.
  A failure tells no host values.
-/
def after
    (scene : Scene)
    (done : Except Error Answer × World) : Scene where
  host := done.2.host
  held :=
    match done.1 with
    | .ok answer => answer.told ++ scene.held
    | .error _ => scene.held

/-
  One scene becomes another, by steps of host code and by
  requests. A request has any boxes, values and signatures,
  and any registry of the schema. It is no `host` request,
  whose change would be arbitrary.

  The functions that a request runs stand for host code: each
  time they end in a scene, `produced` or `returned`, that
  the scene they start in becomes. They know their arguments
  and what was at hand, and may make requests themselves.

  Since marshalling is a request of its own, a run can do the
  steps of the host code after it, so that scenes within a
  call are scenes of a run as well.
-/
inductive Becomes
    (s : Schema) : Scene → Scene → Prop where
| rest
    (scene : Scene) :
    Becomes s scene scene
| step
    {first scene last : Scene}
    (hBefore : Becomes s first scene)
    (hStep : scene.Step s last) :
    Becomes s first last
| request
    {first scene : Scene}
    {reg : Registry}
    {request : Request}
    {produced : Exportable → Host → Scene}
    {returned : HostFunction → List HostValue → Host → Scene}
    (options : Options)
    (log : List Event)
    (identities : Nat)
    (hBefore : Becomes s first scene)
    (hSchema : reg.schema = s)
    (hBridge : ∀ change, request ≠ .host change)
    (hHanded : ∀ v ∈ request.handed, v ∈ scene.held)
    (hProduces : ∀ e host, request.Presents e →
      Becomes s ⟨host, scene.held⟩ (produced e host))
    (hForm : ∀ e host, request.Presents e →
      (e.produce host).2 = (produced e host).host ∧
        ∀ v, (e.produce host).1 = some v →
          v ∈ (produced e host).held)
    (hReturns : ∀ body args host, request.Calls body →
      Becomes s ⟨host, args ++ scene.held⟩
        (returned body args host))
    (hOutputs : ∀ body args host, request.Calls body →
      (body args host).2 = (returned body args host).host ∧
        ∀ v ∈ (body args host).1,
          v ∈ (returned body args host).held) :
    Becomes s first
      (scene.after
        (request.run reg options (scene.world log identities)))

end Scene

/- Host code finds the host form, knowing what is held. -/
def Exportable.IsHostCode
    (s : Schema)
    (held : List HostValue)
    (e : Exportable) : Prop :=
  ∀ host : Host, ∃ last : Scene,
    Scene.Becomes s ⟨host, held⟩ last ∧
      (e.produce host).2 = last.host ∧
      ∀ v, (e.produce host).1 = some v → v ∈ last.held

/- Host code is run, knowing its arguments besides. -/
def HostFunction.IsHostCode
    (s : Schema)
    (held : List HostValue)
    (body : HostFunction) : Prop :=
  ∀ (args : List HostValue) (host : Host), ∃ last : Scene,
    Scene.Becomes s ⟨host, args ++ held⟩ last ∧
      (body args host).2 = last.host ∧
      ∀ v ∈ (body args host).1, v ∈ last.held

namespace Scene

/- A request can be made if what it runs is host code. -/
theorem Becomes.ask
    {first scene : Scene}
    {reg : Registry}
    {request : Request}
    (options : Options)
    (log : List Event)
    (identities : Nat)
    (hBefore : Becomes s first scene)
    (hSchema : reg.schema = s)
    (hBridge : ∀ change, request ≠ .host change)
    (hHanded : ∀ v ∈ request.handed, v ∈ scene.held)
    (hForms : ∀ e, request.Presents e →
      e.IsHostCode s scene.held)
    (hCode : ∀ body, request.Calls body →
      body.IsHostCode s scene.held) :
    Becomes s first
      (scene.after
        (request.run reg options
          (scene.world log identities))) := by
  have hSome : Nonempty Scene := ⟨initial⟩
  choose! produced hProduced using hForms
  choose! returned hReturned using hCode
  apply Becomes.request options log identities hBefore hSchema
    hBridge hHanded
  · exact fun e host hPresents => (hProduced e hPresents host).1
  · exact fun e host hPresents => (hProduced e hPresents host).2
  · exact fun body args host hCalls =>
      (hReturned body hCalls args host).1
  · exact fun body args host hCalls =>
      (hReturned body hCalls args host).2

------------------------------------------------------------
-- Filled Scenes
------------------------------------------------------------

/- All records in the host and at hand are filled. -/
structure IsFilled
    (s : Schema)
    (scene : Scene) : Prop where
  host : scene.host.IsFilled s
  held : AllFilled s scene.held

variable {scene last : Scene} {v : HostValue}

/- Nothing is filled. -/
theorem isFilled_initial
    (s : Schema) :
    initial.IsFilled s where
  host := .initial s
  held := allFilled_nil s

/- The objects may be exchanged for filled ones. -/
theorem IsFilled.withHeap
    {heap : Heap}
    (hFilled : scene.IsFilled s)
    (hHeap : heap.IsFilled s) :
    (scene.withHeap heap).IsFilled s :=
  ⟨hFilled.host.withHeap hHeap, hFilled.held⟩

/- Of what is filled nothing can be made that is not. -/
theorem Makes.isFilled
    (hMakes : scene.Makes s v)
    (hFilled : scene.IsFilled s) :
    v.IsFilled s := by
  have hHeld := hFilled.held
  cases hMakes with
  | plain hNoSeq hNoRecord =>
      exact HostValue.isFilled_of_no_parts hNoSeq hNoRecord
  | seq hItems =>
      apply HostValue.isFilled_seq_iff.mpr
      exact fun u hMem => hHeld u (hItems u hMem)
  | item hSeq hItem =>
      exact HostValue.isFilled_seq_iff.mp (hHeld _ hSeq) v hItem
  | build hValues hBuild =>
      apply HostRecord.isFilled_of_build hBuild
      exact fun u hMem => hHeld u (hValues u hMem)
  | zero t => exact t.isFilled_zero s
  | zeroed id => exact HostRecord.isFilled_zeroed s id
  | get hRecord hGet =>
      rcases Option.bind_eq_some_iff.mp hGet with
        ⟨index, hIndex, hSlot⟩
      exact (HostValue.isFilled_record_iff.mp
        (hHeld _ hRecord)).2 v (List.mem_of_getElem? hSlot)
  | field hRecord hAt =>
      exact (HostValue.isFilled_record_iff.mp
        (hHeld _ hRecord)).2 v (List.mem_of_getElem? hAt)
  | put hRecord hValue hPut =>
      exact HostRecord.isFilled_of_put? (hHeld _ hRecord)
        (hHeld _ hValue) hPut
  | inPlace path hWhole hValue =>
      exact (hHeld _ hWhole).replaceAt (hHeld _ hValue)
  | content h => exact hFilled.host.heap.content h
  | global hGlobal => exact hFilled.host.global? hGlobal

/- Each step of host code leads from filled to filled. -/
theorem Step.isFilled
    (hStep : scene.Step s last)
    (hFilled : scene.IsFilled s) :
    last.IsFilled s := by
  have hHeld := hFilled.held
  have hHeap := hFilled.host.heap
  cases hStep with
  | hold hMakes =>
      exact ⟨hFilled.host, List.forall_mem_cons.mpr
        ⟨hMakes.isFilled hFilled, hHeld⟩⟩
  | alloc hMem =>
      exact ⟨hFilled.host.alloc (hHeld _ hMem), hHeld⟩
  | write hMem hWrite =>
      exact hFilled.withHeap
        (Box.isFilled_of_write hHeap (hHeld _ hMem) hWrite)
  | putField hMem hPut =>
      exact hFilled.withHeap
        (Box.isFilled_of_putField hHeap (hHeld _ hMem) hPut)
  | overwrite h path hMem =>
      exact hFilled.withHeap (hHeap.putAt (hHeld _ hMem) h path)
  | lend h l =>
      exact hFilled.withHeap (hHeap.setLoan h l)
  | assign name hMem =>
      exact ⟨hFilled.host.setGlobal (hHeld _ hMem) name, hHeld⟩
  | forget name =>
      exact ⟨hFilled.host.unsetGlobal name, hHeld⟩
  | raise report =>
      exact ⟨⟨hHeap, hFilled.host.globals⟩, hHeld⟩

/- A request that keeps hosts filled leaves a filled scene. -/
theorem IsFilled.after
    {x : Action Answer}
    (hFilled : scene.IsFilled s)
    (hKeeps :
      Action.KeepsFilled s x fun answer =>
        AllFilled s answer.told)
    (log : List Event)
    (identities : Nat) :
    (scene.after (x (scene.world log identities))).IsFilled s := by
  rcases hKeeps (scene.world log identities) hFilled.host with
    ⟨hHost, hTold⟩
  refine ⟨hHost, ?_⟩
  intro v hMem
  unfold Scene.after at hMem
  split at hMem
  · rename_i answer hOk
    rcases List.mem_append.mp hMem with hNew | hOld
    · exact hTold answer hOk v hNew
    · exact hFilled.held v hOld
  · exact hFilled.held v hMem

/-
  All scenes of a run that starts filled are. The induction
  is over the run and over the runs of the host code in it:
  started on a filled host, each of these ends on one.
-/
theorem Becomes.isFilled
    (hBecomes : Becomes s scene last)
    (hFilled : scene.IsFilled s) :
    last.IsFilled s := by
  induction hBecomes with
  | rest scene => exact hFilled
  | step hBefore hStep ih => exact hStep.isFilled (ih hFilled)
  | request options log identities hBefore hSchema hBridge hHanded
      hProduces hForm hReturns hOutputs ih ihProduces ihReturns =>
      have hNow := ih hFilled
      apply hNow.after
      apply Request.run_keepsFilled options hSchema hBridge
      · exact fun v hMem => hNow.held v (hHanded v hMem)
      · intro e hPresents host hHost
        have hEnd := ihProduces e host hPresents ⟨hHost, hNow.held⟩
        rcases hForm e host hPresents with ⟨hAfter, hFound⟩
        rw [hAfter]
        refine ⟨hEnd.host, ?_⟩
        exact fun v hSome => hEnd.held v (hFound v hSome)
      · intro body hCalls args host hArgs hHost
        have hStart :
            AllFilled s (args ++ _) :=
          List.forall_mem_append.mpr ⟨hArgs, hNow.held⟩
        have hEnd := ihReturns body args host hCalls
          ⟨hHost, hStart⟩
        rcases hOutputs body args host hCalls with
          ⟨hAfter, hHeld⟩
        rw [hAfter]
        refine ⟨hEnd.host, ?_⟩
        exact fun v hMem => hEnd.held v (hHeld v hMem)

end Scene

end Interop
