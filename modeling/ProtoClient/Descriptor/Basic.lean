/-!
# Descriptors

The request that the proto compiler hands over: for every file a descriptor with its declarations,
in which every part may be absent, and the HTTP rules among the options of methods. Only the parts
that clients depend on are kept.

## Main definitions

* `GeneratorRequest`: the request
* `FileDescriptor`, `MessageDescriptor`, `FieldDescriptor`, `EnumDescriptor`,
  `ServiceDescriptor`, `MethodDescriptor`: the descriptors
* `HttpRule`, `HttpPattern`: the HTTP rule of a method

## Main results

* `MessageDescriptor.induction`, `HttpRule.induction`: a property of all messages, or rules,
  follows from its passing from the inner ones to the outer one
-/

namespace ProtoClient

/-- **The descriptor of a field.** Types and labels are numbers. -/
structure FieldDescriptor where
  name : Option String := none
  number : Option Int := none
  label : Option Int := none
  type : Option Int := none
  typeName : Option String := none
  choice : Option Int := none
  jsonName : Option String := none
  explicitPresence : Option Bool := none
  deriving DecidableEq, Repr, Inhabited

/-- The descriptor of a oneof. -/
structure ChoiceDescriptor where
  name : Option String := none
  deriving DecidableEq, Repr, Inhabited

/-- The descriptor of a value of an enum. -/
structure EnumValueDescriptor where
  name : Option String := none
  number : Option Int := none
  deriving DecidableEq, Repr, Inhabited

/-- **The descriptor of an enum.** -/
structure EnumDescriptor where
  name : Option String := none
  values : List EnumValueDescriptor := []
  deriving DecidableEq, Repr, Inhabited

/-- The options of a message. -/
structure MessageOptions where
  isEntry : Option Bool := none
  deriving DecidableEq, Repr, Inhabited

/-- **The descriptor of a message.** -/
structure MessageDescriptor where
  name : Option String := none
  fields : List FieldDescriptor := []
  nested : List MessageDescriptor := []
  enums : List EnumDescriptor := []
  options : Option MessageOptions := none
  choices : List ChoiceDescriptor := []
  deriving Repr, Inhabited

/-- A verb without a pattern of its own, with its path. -/
structure CustomPattern where
  kind : String := ""
  path : String := ""
  deriving DecidableEq, Repr, Inhabited

/-- **The pattern of an HTTP rule**: a verb and a path. -/
inductive HttpPattern
  | get (path : String)
  | put (path : String)
  | post (path : String)
  | delete (path : String)
  | patch (path : String)
  | custom (pattern : CustomPattern)
  deriving DecidableEq, Repr, Inhabited

/-- **An HTTP rule**, which may bring further rules with it. -/
structure HttpRule where
  pattern : Option HttpPattern := none
  body : String := ""
  additional : List HttpRule := []
  deriving Repr, Inhabited

/-- The options of a method. -/
structure MethodOptions where
  http : Option HttpRule := none
  deriving Repr, Inhabited

/-- **The descriptor of a method.** -/
structure MethodDescriptor where
  name : Option String := none
  input : Option String := none
  output : Option String := none
  options : Option MethodOptions := none
  clientStreaming : Option Bool := none
  serverStreaming : Option Bool := none
  deriving Repr, Inhabited

/-- **The descriptor of a service.** -/
structure ServiceDescriptor where
  name : Option String := none
  methods : List MethodDescriptor := []
  deriving Repr, Inhabited

/-- **The descriptor of a file.** -/
structure FileDescriptor where
  name : Option String := none
  package : Option String := none
  dependencies : List String := []
  messages : List MessageDescriptor := []
  enums : List EnumDescriptor := []
  services : List ServiceDescriptor := []
  deriving Repr, Inhabited

/-- **The request of the proto compiler**: the files that modules are wanted for, the parameters
as one text, and all files, dependencies first. -/
structure GeneratorRequest where
  requested : List String := []
  parameter : Option String := none
  files : List FileDescriptor := []
  deriving Repr, Inhabited

/-- A property of all messages follows from its passing from the nested messages of a message to
the message. -/
theorem MessageDescriptor.induction {motive : MessageDescriptor → Prop}
    (step : ∀ message : MessageDescriptor,
      (∀ inner ∈ message.nested, motive inner) → motive message)
    (message : MessageDescriptor) : motive message :=
  @MessageDescriptor.rec motive (fun inners => ∀ inner ∈ inners, motive inner)
    (fun name fields nested enums options choices hinner =>
      step ⟨name, fields, nested, enums, options, choices⟩ hinner)
    (by simp)
    (fun _ _ hfirst hrest => List.forall_mem_cons.mpr ⟨hfirst, hrest⟩)
    message

/-- A property of all rules follows from its passing from the additional rules of a rule to the
rule. -/
theorem HttpRule.induction {motive : HttpRule → Prop}
    (step : ∀ rule : HttpRule, (∀ inner ∈ rule.additional, motive inner) → motive rule)
    (rule : HttpRule) : motive rule :=
  @HttpRule.rec motive (fun inners => ∀ inner ∈ inners, motive inner)
    (fun pattern body additional hinner => step ⟨pattern, body, additional⟩ hinner)
    (by simp)
    (fun _ _ hfirst hrest => List.forall_mem_cons.mpr ⟨hfirst, hrest⟩)
    rule

end ProtoClient
