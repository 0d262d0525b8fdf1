import ProtoClient.Proofs.PropertyPath
import ProtoClient.Proofs.Text.Literal
import ProtoClient.TypeScript.Request

/-!
# Reading the body of a call

A rule has nothing sent as the body of a call, or the whole request, or one field of it. Until the
call is written the three stand in one optional text, in which the field is replaced by the name of
its property and a star is the whole request. A property that is itself called `*` is taken for the
request there, and no other property is taken for anything else. Read back from the call, the body
is what the rule asks for with this one exception, which never occurs where proto names are kept.

## Main definitions

* `SentBody`, `readInit? cs`: what a call sends as its body, read from the last part of the call
* `Method.bodyProperty registry options method field`: the name of the property that a field becomes
* `Operation.SendsBody registry options method binding operation`: what a bound method sends

## Main results

* `Call.readInit?_init`: the body is read back from the text of a call
* `Method.bodyProperty_of_protoNames`: where proto names are kept, the property is called as the
  field
* `sendsBody_of_ofFile?`: what the methods of a file send as their bodies
-/

namespace ProtoClient

open Text

variable {registry : Registry} {options : Options} {file : File} {module : ClientModule}

/-! ### The last part of a call -/

/-- **What a call sends as its body**: nothing, the whole request, or the property whose name is
written as a literal. -/
inductive SentBody
  | nothing
  | request
  | property (literal : String)
  deriving DecidableEq, Repr

/-- **What is sent for the body of a call**: a star is the whole request. -/
def SentBody.of : Option String → SentBody
  | none => .nothing
  | some name => if name = "*" then .request else .property (quote name)

section Of

variable {entry : Option String}

theorem SentBody.of_eq_nothing_iff : of entry = .nothing ↔ entry = none := by
  cases entry with
  | none => simp [of]
  | some name => by_cases hstar : name = "*" <;> simp [of, hstar]

theorem SentBody.of_eq_request_iff : of entry = .request ↔ entry = some "*" := by
  cases entry with
  | none => simp [of]
  | some name => by_cases hstar : name = "*" <;> simp [of, hstar]

theorem SentBody.of_eq_property_iff {literal : String} :
    of entry = .property literal ↔
      ∃ name, entry = some name ∧ name ≠ "*" ∧ literal = quote name := by
  cases entry with
  | none => simp [of]
  | some name => by_cases hstar : name = "*" <;> simp [of, hstar, eq_comm]

end Of

/-- What stands in front of the verb of a call. -/
def initFront : List Char := "\x7b...initReq, method: ".toList

/-- What a call without a body ends in. -/
def initEnd : List Char := "\x7d".toList

/-- What stands in front of the body, as far as it is a part of the request. -/
def bodyFront : List Char := ", body: JSON.stringify(req".toList

/-- What a call with a body ends in. -/
def bodyEnd : List Char := ", fm.replacer)\x7d".toList

/-- What is sent as the body, read from what follows the verb of a call. -/
def readBody? (cs : List Char) : Option SentBody :=
  if cs = initEnd then some .nothing
  else
    (cs.dropPrefix? bodyFront).bind fun rest =>
      if rest = bodyEnd then some .request
      else
        (rest.dropPrefix? ['[']).bind fun rest =>
          (readLiteral? rest).bind fun (literal, after) =>
            if after = ']' :: bodyEnd then some (.property (String.ofList literal)) else none

/-- **What is sent as the body**, read from the last part of a call. -/
def readInit? (cs : List Char) : Option SentBody :=
  (cs.dropPrefix? initFront).bind fun rest =>
    (readLiteral? rest).bind fun (_, after) => readBody? after

/-- What is cut off in front is what stood there. -/
theorem dropPrefix?_append (front rest : List Char) :
    (front ++ rest).dropPrefix? front = some rest :=
  List.dropPrefix?_eq_some_iff.mpr ⟨front, rfl, beq_self_eq_true front⟩

/-- A call with a body goes on behind its verb. -/
theorem bodyFront_append_ne (rest : List Char) : bodyFront ++ rest ≠ initEnd := by
  have hfront : bodyFront.head? = some ',' := rfl
  have hend : initEnd.head? = some '\x7d' := rfl
  intro h
  have hhead := congrArg List.head? h
  rw [List.head?_append, hfront, hend, Option.some_or] at hhead
  exact absurd hhead (by decide)

/-- The whole request is read back. -/
theorem readBody?_request : readBody? (bodyFront ++ bodyEnd) = some .request := by
  rw [readBody?, if_neg (bodyFront_append_ne _), dropPrefix?_append, Option.bind_some, if_pos rfl]

/-- The name of a property is read back as it is written. -/
theorem readBody?_property (name : String) :
    readBody? (bodyFront ++ (['['] ++ (quoteList name.toList ++ ']' :: bodyEnd))) =
      some (.property (quote name)) := by
  have hne : ['['] ++ (quoteList name.toList ++ ']' :: bodyEnd) ≠ bodyEnd := by
    have hend : bodyEnd.head? = some ',' := rfl
    intro h
    have hhead := congrArg List.head? h
    rw [hend] at hhead
    exact absurd hhead (by simp)
  rw [readBody?, if_neg (bodyFront_append_ne _), dropPrefix?_append, Option.bind_some, if_neg hne,
    dropPrefix?_append, Option.bind_some, readLiteral?_quoteList, Option.bind_some]
  exact if_pos rfl

theorem toList_quote (s : String) : (quote s).toList = quoteList s.toList :=
  String.toList_ofList

/-- What a call sends does not depend on its verb. -/
theorem readInit?_append (verb rest : String) :
    readInit? ("\x7b...initReq, method: " ++ quote verb ++ rest ++ "\x7d").toList =
      readBody? (rest.toList ++ initEnd) := by
  rw [String.toList_append, String.toList_append, String.toList_append, toList_quote,
    List.append_assoc, List.append_assoc]
  refine (congrArg (Option.bind · _) (dropPrefix?_append initFront _)).trans ?_
  rw [Option.bind_some, readLiteral?_quoteList, Option.bind_some]
  rfl

/-- What is written for a body that is a part of the request, up to the end of the call. -/
theorem toList_body (part : String) :
    (", body: " ++ ("JSON.stringify(" ++ ("req" ++ part) ++ ", fm.replacer)")).toList ++ initEnd =
      bodyFront ++ (part.toList ++ bodyEnd) := by
  have hfront : ", body: ".toList ++ ("JSON.stringify(".toList ++ "req".toList) = bodyFront := rfl
  have hend : ", fm.replacer)".toList ++ initEnd = bodyEnd := rfl
  rewrite [String.toList_append, String.toList_append, String.toList_append, String.toList_append,
    ← hfront, ← hend]
  simp only [List.append_assoc]

/-- A property of the request. -/
theorem propertyAccess_singleton (name : String) :
    propertyAccess [name] = "req" ++ ("[" ++ quote name ++ "]") := by
  rw [propertyAccess, List.map_cons, List.map_nil, String.intercalate_singleton]

/-- **The body is read back from the text of a call.** -/
theorem Call.readInit?_init (call : Call) :
    readInit? call.init.toList = some (.of call.body) := by
  unfold init
  cases call.body with
  | none => exact (readInit?_append call.verb "").trans (if_pos rfl)
  | some name =>
    refine (readInit?_append call.verb _).trans ?_
    dsimp only [bodyText]
    by_cases hstar : name = "*"
    · rewrite [if_pos hstar, ← String.append_empty (s := "req"), toList_body]
      exact readBody?_request.trans (congrArg some (if_pos hstar).symm)
    · have hpart : ("[" ++ quote name ++ "]").toList ++ bodyEnd =
          ['['] ++ (quoteList name.toList ++ ']' :: bodyEnd) := by
        rw [String.toList_append, String.toList_append, toList_quote, List.append_assoc,
          List.append_assoc]
        rfl
      rewrite [if_neg hstar, propertyAccess_singleton, toList_body, hpart]
      exact (readBody?_property name).trans (congrArg some (if_neg hstar).symm)

/-! ### What a rule asks for -/

/-- **The name of the property that a field becomes** in the requests of a method. -/
def Method.bodyProperty (registry : Registry) (options : Options) (method : Method)
    (field : String) : String :=
  (((registry.find? method.input).bind (·.field? field)).map
    (·.propertyName options.protoNames)).getD (options.plainName field)

/-- **Where proto names are kept, the property is called as the field.** -/
theorem Method.bodyProperty_of_protoNames (h : options.protoNames = true) (method : Method)
    (field : String) : method.bodyProperty registry options field = field := by
  unfold bodyProperty
  cases hfield : (registry.find? method.input).bind (·.field? field) with
  | none => exact if_pos h
  | some declared =>
    obtain ⟨type, -, hdeclared⟩ := Option.bind_eq_some_iff.mp hfield
    have hname : declared.name = field := by simpa using List.find?_some hdeclared
    rw [Option.map_some, Option.getD_some, Field.propertyName, if_pos h, hname]

/-- A call has no body when its rule has none, or an empty one. -/
theorem Method.bodyOf_eq_none_iff {method : Method} {binding : Binding} :
    bodyOf registry options (registry.find? method.input) binding = none ↔
      binding.body = none ∨ binding.body = some "" := by
  unfold bodyOf
  cases binding.body with
  | none => simp
  | some field =>
    by_cases hempty : field = ""
    · simp [hempty]
    · by_cases hstar : field = "*" <;> simp [hempty, hstar]

/-- **The body of a call is a star or the name of a property**, as its rule asks for it. -/
theorem Method.bodyOf_eq_some_iff {method : Method} {binding : Binding} {name : String} :
    bodyOf registry options (registry.find? method.input) binding = some name ↔
      (binding.body = some "*" ∧ name = "*") ∨
        ∃ field, binding.body = some field ∧ field ≠ "" ∧ field ≠ "*" ∧
          name = method.bodyProperty registry options field := by
  cases hbody : binding.body with
  | none => simp [bodyOf, hbody]
  | some field =>
    by_cases hempty : field = ""
    · simp [bodyOf, hbody, hempty]
    by_cases hstar : field = "*"
    · simpa [bodyOf, hbody, hstar] using eq_comm
    obtain ⟨entry, hentry, hpath⟩ :=
      propertyPath_of_bodyOf registry options (registry.find? method.input) hbody hempty hstar
    rw [propertyPath_cons] at hpath
    obtain rfl : method.bodyProperty registry options field = entry := (List.cons.inj hpath).1
    simpa [hentry, hempty, hstar] using eq_comm

/-- The front of the line in which an operation calls the server. -/
def Operation.callFront (operation : Operation) : String :=
  let types := "<" ++ operation.request.text ++ ", " ++ operation.response.text ++ ">"
  let url := "`" ++ operation.call.url ++ "`"
  if operation.serverStreaming then
    "    return fm.fetchStreamingRequest" ++ types ++ "(" ++ url ++ ", entityNotifier, "
  else "    return fm.fetchReq" ++ types ++ "(" ++ url ++ ", "

/-- The last part of a call is the last argument with which the operation calls the server. -/
theorem Operation.lines_getElem?_one (operation : Operation) :
    operation.lines[1]? = some (operation.callFront ++ operation.call.init ++ ")") := by
  unfold lines callFront
  cases operation.serverStreaming <;> rfl

/-- **What a bound method sends** as the body of its call. -/
structure Operation.SendsBody (registry : Registry) (options : Options) (method : Method)
    (binding : Binding) (operation : Operation) : Prop where
  /-- The body is in the last argument of the call. -/
  line : operation.lines[1]? = some (operation.callFront ++ operation.call.init ++ ")")
  /-- Nothing is sent when the rule has no body, or an empty one. -/
  nothing_iff : readInit? operation.call.init.toList = some .nothing ↔
    binding.body = none ∨ binding.body = some ""
  /-- The whole request is sent when the body is `*`, or a field whose property is called `*`. -/
  request_iff : readInit? operation.call.init.toList = some .request ↔
    binding.body = some "*" ∨ ∃ field, binding.body = some field ∧ field ≠ "" ∧ field ≠ "*" ∧
      method.bodyProperty registry options field = "*"
  /-- One property is sent when the body is a field of another name, and then its property. -/
  property_iff : ∀ literal, readInit? operation.call.init.toList = some (.property literal) ↔
    ∃ field, binding.body = some field ∧ field ≠ "" ∧ field ≠ "*" ∧
      method.bodyProperty registry options field ≠ "*" ∧
      literal = quote (method.bodyProperty registry options field)
  /-- Where proto names are kept, only the field `*` has a property called `*`. -/
  bodyProperty_eq : options.protoNames = true →
    ∀ field, method.bodyProperty registry options field = field

/-- A bound method sends what its rule asks for, but for a property called `*`. -/
theorem Method.sendsBody_of_operation {source : String} {method : Method} {binding : Binding}
    {operation : Operation} (h : method.operation registry options source binding = .ok operation) :
    operation.SendsBody registry options method binding := by
  have hread : readInit? operation.call.init.toList =
      some (.of (bodyOf registry options (registry.find? method.input) binding)) := by
    obtain ⟨request, response, parameters, -, -, -, rfl⟩ := operation_eq_ok_iff.mp h
    exact Call.readInit?_init _
  constructor
  case line => exact operation.lines_getElem?_one
  case nothing_iff =>
    rw [hread, Option.some_inj, SentBody.of_eq_nothing_iff, bodyOf_eq_none_iff]
  case request_iff =>
    rw [hread, Option.some_inj, SentBody.of_eq_request_iff, bodyOf_eq_some_iff]
    simp only [and_true, eq_comm]
  case property_iff =>
    intro literal
    rw [hread, Option.some_inj, SentBody.of_eq_property_iff]
    constructor
    · rintro ⟨name, hname, hstar, rfl⟩
      rcases bodyOf_eq_some_iff.mp hname with ⟨-, rfl⟩ | ⟨field, hbody, hempty, hfield, rfl⟩
      · exact absurd rfl hstar
      · exact ⟨field, hbody, hempty, hfield, hstar, rfl⟩
    · rintro ⟨field, hbody, hempty, hfield, hstar, rfl⟩
      exact ⟨_, bodyOf_eq_some_iff.mpr (.inr ⟨field, hbody, hempty, hfield, rfl⟩), hstar, rfl⟩
  case bodyProperty_eq => exact fun hproto => bodyProperty_of_protoNames hproto method

/-- **The methods of a file send what their rules ask for**, but for properties called `*`: those of
every service, in order. -/
theorem sendsBody_of_ofFile? (h : ClientModule.ofFile? registry options file = .ok module) :
    List.Forall₂ (fun service client =>
      List.Forall₂ (fun (method, binding) operation =>
        operation.SendsBody registry options method binding)
        (Service.boundMethods service) (Client.operations client))
      file.services module.clients := by
  obtain ⟨objects, clients, -, hclients, rfl⟩ := ClientModule.ofFile?_eq_ok_iff.mp h
  refine forall₂_of_mapM (fun service _ client hclient => ?_) hclients
  obtain ⟨operations, hoperations, rfl⟩ := Service.client_eq_ok_iff.mp hclient
  exact forall₂_of_mapM (fun _ _ _ => Method.sendsBody_of_operation) hoperations

namespace Sample

/-- An archive with the given bodies in the rules of its methods. Its requests have a field whose
property is called `*`. -/
def archive (bodies : List (Option String)) : File where
  name := "archive.proto"
  package := "archive"
  dependencies := []
  messages := [⟨"StoreRequest", [
    ⟨"shelf_code", 1, none, .optional, .scalar .string, none, false⟩,
    ⟨"everything", 2, some "*", .optional, .scalar .string, none, false⟩], [], [], [], false⟩]
  enums := []
  services := [⟨"Archive", bodies.map fun body =>
    ⟨"Store", ".archive.StoreRequest", ".google.protobuf.Empty", false, false,
      some ⟨.post, "/v1/\x7bshelf_code\x7d", body⟩⟩⟩]

/-- What the methods of a module send as their bodies, as far as they can be read. -/
def sentBodies (module : ClientModule) : List (Option SentBody) :=
  (module.clients.flatMap Client.operations).map fun operation =>
    readInit? operation.call.init.toList

/-- They are what is sent for the bodies of the calls. -/
theorem sentBodies_eq (module : ClientModule) :
    sentBodies module = ((module.clients.flatMap Client.operations).map (·.call.body)).map
      fun entry => some (.of entry) := by
  rw [List.map_map]
  exact List.map_congr_left fun operation _ => operation.call.readInit?_init

end Sample

/-- Without a body nothing is sent, for a star the request, and for a field its property. -/
theorem sendsBody_archive :
    ∃ registry module,
      Registry.ofFiles [Sample.archive [none, some "", some "*", some "shelf_code"]] =
        .ok registry ∧
      ClientModule.ofFile? registry {}
        (Sample.archive [none, some "", some "*", some "shelf_code"]) = .ok module ∧
      Sample.sentBodies module = [some .nothing, some .nothing, some .request,
        some (.property (quote "shelfCode"))] ∧
      List.Forall₂ (fun service client =>
        List.Forall₂ (fun (method, binding) operation =>
          operation.SendsBody registry {} method binding)
          (Service.boundMethods service) (Client.operations client))
        (Sample.archive [none, some "", some "*", some "shelf_code"]).services module.clients := by
  have hrun : ((Registry.ofFiles
      [Sample.archive [none, some "", some "*", some "shelf_code"]]).mapError .fault >>=
        fun registry => (ClientModule.ofFile? registry {}
          (Sample.archive [none, some "", some "*", some "shelf_code"])).map fun module =>
            (module.clients.flatMap Client.operations).map (·.call.body)) =
      .ok [none, none, some "*", some "shelfCode"] := by decide +kernel
  obtain ⟨registry, module, hreg, hmodule, hbodies⟩ := exists_module_of_map hrun
  refine ⟨registry, module, hreg, hmodule, ?_, sendsBody_of_ofFile? hmodule⟩
  rw [Sample.sentBodies_eq, hbodies]
  simp [SentBody.of]

/-- A rule that asks for one field whose property is called `*` has the whole request sent. -/
theorem sentBodies_archive_star :
    ((Sample.archive [some "everything"]).services.flatMap Service.boundMethods).map (·.2.body) =
        [some "everything"] ∧
      (modulesOf {} [Sample.archive [some "everything"]]).map (List.map Sample.sentBodies) =
        .ok [[some .request]] :=
  ⟨rfl, by decide +kernel⟩

end ProtoClient
