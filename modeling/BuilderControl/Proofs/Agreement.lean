import BuilderControl.Proofs.CommandLines
import BuilderControl.Proofs.Saving

/-!
# `save` next to `create` and `patch`

The words that are given to `save` can be given to `create` if they say all that it takes, and the
words that are given to `patch` can be given to `save`.  Both ways, the two invocations agree.

## Key results

- `Command.exists_create`, `Command.exists_save`: invocations with the same words
- `Invocation.save_agrees`: `save` does what `create` or `patch` does
-/

namespace BuilderControl

open MemoryStore CommandLine

namespace Command

/-! ## Commands that manage builders -/

/-- The words for builders of a type. -/
inductive Manages : String → ResourceType → Prop
  | clusterBuilder : Manages "clusterbuilder" .clusterBuilder
  | clusterBuilderAlias : Manages "cb" .clusterBuilder
  | builder : Manages "builder" .builder
  | builderAlias : Manages "b" .builder

/-- The command of a verb for builders of a type. -/
def spec? (type : ResourceType) (verb : String) : Option CommandSpec :=
  (if type = .clusterBuilder then clusterBuilderCommand else builderCommand).find? verb

/-- The words that lead to the command of a verb. -/
def route (type : ResourceType) (verb : String) : List String :=
  ["kp", if type = .clusterBuilder then "clusterbuilder" else "builder", verb]

/-- The words for a verb are parsed by its command. -/
theorem parse_of_spec? {kind verb : String} {type : ResourceType} (hkind : Manages kind type)
    (hverb : verb ∈ ["create", "patch", "save"]) {c : CommandSpec} (hc : spec? type verb = some c)
    (words : List String) :
    parse program version (kind :: verb :: words) = parseFrom ⟨route type verb, c, ""⟩ {} words := by
  simp only [List.mem_cons, List.not_mem_nil, or_false] at hverb
  -- Each word for a type, with each of the verbs
  cases hkind <;> rcases hverb with rfl | rfl | rfl <;> cases hc <;> rfl

/-- What stands for the arguments of `save` in `create`. -/
structure CreatesAs (create save : CommandSpec) : Prop where
  takes : create.Takes ["order"] save
  same : ∀ id ∈ ["namespace", "name", "tag", "order", "service_account", "service_account_name",
    "service_account_namespace", "dry_run", "output", "wait", "wait_timeout"],
    create.default? id = save.default? id
  /-- Only `create` has defaults for these. -/
  default : ∀ id ∈ ["stack", "store"], save.default? id = none ∧
    create.default? id = some ⟨id, false, .text, [.text "default"]⟩
  /-- A new builder needs a tag and an order. -/
  required : ∀ a ∈ create.args, a.default = none → a.required = true →
    a.id = "tag" ∨ a.id = "order" ∨ a ∈ save.args
  absent : ∀ id ∈ ["tag", "order"], save.default? id = none
  texts : ∀ a ∈ save.args, a.id ∈ ["stack", "store"] → a.action = .set ∧ a.type = .text

/-- What stands for the arguments of `patch` in `save`. -/
structure SavesAs (save patch : CommandSpec) : Prop where
  takes : save.Takes [] patch
  same : ∀ id ∈ ["namespace", "name", "tag", "stack", "store", "order", "dry_run", "output", "wait",
    "wait_timeout"], save.default? id = patch.default? id
  required : ∀ a ∈ save.args, a.default = none → a.required = true → a ∈ patch.args
  untagged : patch.default? "tag" = none ∧ ∀ a ∈ patch.args, a.id ≠ "tag"

/-- For both types of builders there are the three commands, and they stand to each other as they
have to. -/
theorem exists_specs {kind : String} {type : ResourceType} (h : Manages kind type) :
    ∃ create patch save, spec? type "create" = some create ∧ spec? type "patch" = some patch ∧
      spec? type "save" = some save ∧ CreatesAs create save ∧ SavesAs save patch := by
  have htype : type = .clusterBuilder ∨ type = .builder := by
    cases h
    · exact Or.inl rfl
    · exact Or.inl rfl
    · exact Or.inr rfl
    · exact Or.inr rfl
  -- All of it can be read off the commands
  rcases htype with rfl | rfl
  all_goals
    refine ⟨_, _, _, rfl, rfl, rfl, ⟨⟨⟨rfl, rfl⟩, ?_, rfl, ?_, ?_, ?_⟩, ?_, ?_, ?_, ?_, ?_⟩,
      ⟨⟨⟨rfl, rfl⟩, ?_, rfl, ?_, ?_, ?_⟩, ?_, ?_, ?_⟩⟩ <;> decide +kernel

/-- What was parsed for a verb is the command of this verb. -/
theorem ofParsed_route {kind : String} {type : ResourceType} (h : Manages kind type) (verb : String)
    (found : Matches) : ofParsed ⟨route type verb, found⟩ = ofBuilderVerb type verb found := by
  cases h <;> rfl

/-! ## What is asked for -/

section Found

variable {found found' : Matches}

/-- A text is what was found under its name. -/
theorem text?_congr {id : String} (h : found.find? id = found'.find? id) :
    text? found id = text? found' id := by
  rw [text?, text?, h]

/-- A text that has to be there is what was found under its name. -/
theorem text_congr {id : String} (h : found.find? id = found'.find? id) :
    text found id = text found' id := by
  rw [text, text, text?_congr h]

/-- A text that is there is the one that has to be there. -/
theorem text_of_text? {id value : String} (h : text? found id = some value) :
    text found id = value := by
  rw [text, h, Option.getD_some]

/-- The account is made of three texts. -/
theorem account_congr (type : ResourceType)
    (hhere : found.find? "service_account" = found'.find? "service_account")
    (hname : found.find? "service_account_name" = found'.find? "service_account_name")
    (hns : found.find? "service_account_namespace" = found'.find? "service_account_namespace") :
    account found type = account found' type := by
  rw [account, account, text_congr hhere, text_congr hname, text_congr hns]

/-- The changes that are asked for are made of four texts. -/
theorem changes_congr (htag : found.find? "tag" = found'.find? "tag")
    (hstack : found.find? "stack" = found'.find? "stack")
    (hstore : found.find? "store" = found'.find? "store")
    (horder : found.find? "order" = found'.find? "order") : changes found = changes found' := by
  rw [changes, changes, text?_congr htag, text?_congr hstack, text?_congr hstore,
    text?_congr horder]

/-- The mode is made of three flags. -/
theorem mode_congr (hdry : found.find? "dry_run" = found'.find? "dry_run")
    (houtput : found.find? "output" = found'.find? "output")
    (hwait : found.find? "wait" = found'.find? "wait") : found.mode = found'.mode := by
  simp only [Matches.mode, Matches.flag, hdry, houtput, hwait]

/-- A text that has a default in one of two commands. -/
theorem text_complete {c d : CommandSpec} {given : Matches} {id value : String}
    (hrecords : ∀ m ∈ given, ∃ a ∈ c.args, a.Records m)
    (htexts : ∀ a ∈ c.args, a.id = id → a.action = .set ∧ a.type = .text)
    (hc : c.default? id = none) (hd : d.default? id = some ⟨id, false, .text, [.text value]⟩) :
    text (d.complete given) id = (text? (c.complete given) id).getD value := by
  rw [text, text?, text?, CommandSpec.find?_complete, CommandSpec.find?_complete, hc, hd]
  cases hfind : given.find? id with
  | none => rfl
  | some m =>
    -- What was given is a text
    obtain ⟨a, ha, hm⟩ := hrecords m (List.mem_of_find?_eq_some hfind)
    have hid : m.id = id := by simpa using List.find?_some hfind
    cases hm with
    | set haction hread =>
      rw [Arg.read, (htexts a ha hid).2] at hread
      cases hread
      rfl
    | switch haction => cases haction.symm.trans (htexts a ha hid).1

/-- The time to wait is what was found under its name. -/
theorem timeoutOf_congr (h : found.find? "wait_timeout" = found'.find? "wait_timeout") :
    Invocation.timeoutOf found = Invocation.timeoutOf found' := by
  rw [Invocation.timeoutOf, Invocation.timeoutOf, h]

end Found

/-- An invocation is made of what was parsed: its mode, its command and its time to wait. -/
theorem ofArgs_ok_iff {args : List String} {i : Invocation} :
    Invocation.ofArgs args = .ok i ↔ ∃ parsed, parse program version args = .ok parsed ∧
      parsed.found.mode = .ok i.mode ∧ ofParsed parsed = some i.command ∧
      i.timeout = .ofSeconds (Invocation.timeoutOf parsed.found) := by
  rw [Invocation.ofArgs, Except.bind_ok_iff]
  simp only [Except.mapError_ok_iff]
  refine exists_congr fun parsed => and_congr_right fun _ => ?_
  constructor
  · intro h
    obtain ⟨mode, hmode, h⟩ := Except.bind_ok_iff.1 h
    split at h
    · rename_i command hcommand
      cases h
      exact ⟨Except.mapError_ok_iff.1 hmode, hcommand, rfl⟩
    · cases h
  · obtain ⟨command, mode, timeout⟩ := i
    rintro ⟨hmode, hcommand, rfl⟩
    refine Except.bind_ok_iff.2 ⟨mode, Except.mapError_ok_iff.2 hmode, ?_⟩
    rw [hcommand]
    rfl

/-! ## Invocations with the same words -/

section Words

variable {kind : String} {type : ResourceType} (hkind : Manages kind type) {words : List String}
include hkind

/-- What an invocation was given is given to another command that takes its words.  The settings are
the same if the defaults of their arguments are. -/
theorem exists_given_of_ofArgs {verb verb' : String} (hverb : verb ∈ ["create", "patch", "save"])
    (hverb' : verb' ∈ ["create", "patch", "save"]) {c d : CommandSpec}
    (hc : spec? type verb = some c) (hd : spec? type verb' = some d) {strict : List String}
    (htakes : d.Takes strict c) {i : Invocation}
    (hi : Invocation.ofArgs (kind :: verb :: words) = .ok i) :
    ∃ given : Matches, ofBuilderVerb type verb (c.complete given) = some i.command ∧
      (∀ m ∈ given, ∃ a ∈ c.args, a.Records m) ∧
      (∀ a ∈ c.args, given.find? a.id = none → a.default = none → a.required = false) ∧
      (given.Spoiled strict ∨
        ((∀ b ∈ d.args, given.find? b.id = none → b.default = none → b.required = false) →
          (∀ id ∈ ["dry_run", "output", "wait", "wait_timeout"], d.default? id = c.default? id) →
          ∀ command, ofBuilderVerb type verb' (d.complete given) = some command →
            Invocation.ofArgs (kind :: verb' :: words) = .ok ⟨command, i.mode, i.timeout⟩)) := by
  obtain ⟨parsed, hparse, hmode, hparsed, htimeout⟩ := ofArgs_ok_iff.1 hi
  rw [parse_of_spec? hkind hverb hc] at hparse
  obtain ⟨given, rfl, hrecords, hrequired, hgiven⟩ :=
    exists_given htakes hparse (route type verb') ""
  rw [ofParsed_route hkind] at hparsed
  refine ⟨given, hparsed, hrecords, hrequired, hgiven.imp_right fun hgiven hnone hsame => ?_⟩
  -- The settings were given, or have the same default in both commands
  have hfind : ∀ id ∈ ["dry_run", "output", "wait", "wait_timeout"],
      (d.complete given).find? id = (c.complete given).find? id := by
    intro id hid
    rw [CommandSpec.find?_complete, CommandSpec.find?_complete, hsame id hid]
  intro command hcommand
  refine ofArgs_ok_iff.2 ⟨⟨route type verb', d.complete given⟩, ?_, ?_, ?_, ?_⟩
  · rw [parse_of_spec? hkind hverb' hd]
    exact hgiven hnone
  · rw [mode_congr (hfind "dry_run" (by simp)) (hfind "output" (by simp)) (hfind "wait" (by simp))]
    exact hmode
  · rw [ofParsed_route hkind]
    exact hcommand
  · rw [timeoutOf_congr (hfind "wait_timeout" (by simp))]
    exact htimeout

variable {ns : Option String} {name : String} {request : ChangeRequest}

/-- What `save` takes to create a builder can be given to `create`. -/
theorem exists_create {j : Invocation} (hj : Invocation.ofArgs (kind :: "save" :: words) = .ok j)
    {account : Builder.Account} (hcommand : j.command = .save account ns name request)
    {tag path : String} (hcomplete : request.IsComplete tag path) :
    account.type = type ∧ Invocation.ofArgs (kind :: "create" :: words) = .ok
      ⟨.create account ns name tag (request.stack.getD "default") (request.store.getD "default")
        path, j.mode, j.timeout⟩ := by
  obtain ⟨create, patch, save, hcreate, -, hsave, hspecs, -⟩ := exists_specs hkind
  obtain ⟨given, hsaves, hrecords, hrequired, hgiven⟩ :=
    exists_given_of_ofArgs hkind (by simp) (by simp) hsave hcreate hspecs.takes hj
  rw [hcommand] at hsaves
  cases hsaves
  refine ⟨by cases hkind <;> rfl, ?_⟩
  -- Both commands complete what is given in the same way, up to the defaults of `stack` and
  -- `store`.
  have hsame : ∀ id ∈ ["namespace", "name", "tag", "order", "service_account",
      "service_account_name", "service_account_namespace", "dry_run", "output", "wait",
      "wait_timeout"], (create.complete given).find? id = (save.complete given).find? id := by
    intro id hid
    rw [CommandSpec.find?_complete, CommandSpec.find?_complete, hspecs.same id hid]
  have habsent : ∀ {id : String}, id ∈ ["tag", "order"] → given.find? id = none →
      text? (save.complete given) id = none := by
    intro id hid hnone
    rw [text?, CommandSpec.find?_complete, hnone, hspecs.absent id hid]
    rfl
  rcases hgiven with ⟨id, hid, m, hfind, hvalues⟩ | hgiven
  · -- The path of the order file is not empty
    cases List.mem_singleton.1 hid
    have hempty : text? (save.complete given) "order" = some "" := by
      rw [text?, CommandSpec.find?_complete, hfind, Option.some_or, Option.bind_some, hvalues]
      rfl
    exact absurd (Option.some.inj (hcomplete.order_eq.symm.trans hempty)) hcomplete.order_ne
  refine hgiven ?_ (fun id hid => hspecs.same id (by grind)) _ ?_
  · -- What `create` misses is a tag or an order, or `save` misses it as well
    refine fun a ha hnone hdefault => Bool.eq_false_iff.2 fun hrequires => ?_
    rcases hspecs.required a ha hdefault hrequires with hid | hid | ha'
    · rw [hid] at hnone
      cases hcomplete.tag_eq.symm.trans (habsent (by simp) hnone)
    · rw [hid] at hnone
      cases hcomplete.order_eq.symm.trans (habsent (by simp) hnone)
    · cases hrequires.symm.trans (hrequired a ha' hnone hdefault)
  · -- The two flags that `create` has a default for, and `save` takes without one
    have hdefault : ∀ {id : String}, id ∈ ["stack", "store"] → text (create.complete given) id =
        (text? (save.complete given) id).getD "default" := fun {id} hid =>
      text_complete hrecords (fun a ha hname => hspecs.texts a ha (hname ▸ hid))
        (hspecs.default id hid).1 (hspecs.default id hid).2
    have hstack := hdefault (by simp : "stack" ∈ ["stack", "store"])
    have hstore := hdefault (by simp : "store" ∈ ["stack", "store"])
    have htag : text (create.complete given) "tag" = tag := by
      rw [text_congr (hsame "tag" (by simp)), text_of_text? hcomplete.tag_eq]
    have horder : text (create.complete given) "order" = path := by
      rw [text_congr (hsame "order" (by simp)), text_of_text? hcomplete.order_eq]
    have haccount := account_congr type (hsame "service_account" (by simp))
      (hsame "service_account_name" (by simp)) (hsame "service_account_namespace" (by simp))
    simp only [ofBuilderVerb, haccount, text?_congr (hsame "namespace" (by simp)),
      text_congr (hsame "name" (by simp)), hstack, hstore, htag, horder, changes]

/-- What `patch` takes can be given to `save`. -/
theorem exists_save {i : Invocation} (hi : Invocation.ofArgs (kind :: "patch" :: words) = .ok i)
    {type' : ResourceType} (hcommand : i.command = .patch type' ns name request) :
    request.tag = none ∧ ∃ account : Builder.Account, account.type = type' ∧
      Invocation.ofArgs (kind :: "save" :: words) =
        .ok ⟨.save account ns name request, i.mode, i.timeout⟩ := by
  obtain ⟨create, patch, save, -, hpatch, hsave, -, hspecs⟩ := exists_specs hkind
  obtain ⟨given, hpatches, hrecords, hrequired, hgiven⟩ :=
    exists_given_of_ofArgs hkind (by simp) (by simp) hpatch hsave hspecs.takes hi
  rw [hcommand] at hpatches
  cases hpatches
  have hsame : ∀ id ∈ ["namespace", "name", "tag", "stack", "store", "order", "dry_run", "output",
      "wait", "wait_timeout"], (save.complete given).find? id = (patch.complete given).find? id := by
    intro id hid
    rw [CommandSpec.find?_complete, CommandSpec.find?_complete, hspecs.same id hid]
  have htag : text? (patch.complete given) "tag" = none := by
    -- `patch` has no tag that could have been given
    have hnone : given.find? "tag" = none := by
      refine List.find?_eq_none.2 fun m hm => ?_
      obtain ⟨a, ha, hrecord⟩ := hrecords m hm
      have hid := hspecs.untagged.2 a ha
      cases hrecord <;> simpa using hid
    rw [text?, CommandSpec.find?_complete, hnone, hspecs.untagged.1]
    rfl
  refine ⟨htag, account (save.complete given) type, by cases hkind <;> rfl, ?_⟩
  rcases hgiven with ⟨id, hid, -⟩ | hgiven
  · cases hid
  refine hgiven ?_ (fun id hid => hspecs.same id (by grind)) _ ?_
  · -- What `save` misses, `patch` misses as well
    refine fun a ha hnone hdefault => Bool.eq_false_iff.2 fun hrequires => ?_
    have ha' := hspecs.required a ha hdefault hrequires
    cases hrequires.symm.trans (hrequired a ha' hnone hdefault)
  · have hchanges := changes_congr (hsame "tag" (by simp)) (hsame "stack" (by simp))
      (hsame "store" (by simp)) (hsame "order" (by simp))
    simp only [ofBuilderVerb, text?_congr (hsame "namespace" (by simp)),
      text_congr (hsame "name" (by simp)), hchanges]

/-- What is saved is of the type that is managed. -/
theorem type_of_save {j : Invocation} (hj : Invocation.ofArgs (kind :: "save" :: words) = .ok j)
    {account : Builder.Account} (hcommand : j.command = .save account ns name request) :
    account.type = type := by
  obtain ⟨create, patch, save, hcreate, -, hsave, hspecs, -⟩ := exists_specs hkind
  obtain ⟨given, hsaves, -⟩ :=
    exists_given_of_ofArgs hkind (by simp) (by simp) hsave hcreate hspecs.takes hj
  rw [hcommand] at hsaves
  cases hsaves
  cases hkind <;> rfl

end Words

end Command

/-! ## Endings with the same words -/

namespace Invocation

variable {kind : String} {type : ResourceType}

/-- What is missing is saved as it is created with the same words, after it was looked for; what is
there is saved as it is patched, whatever account is stated for a new builder. -/
theorem save_agrees (hkind : Command.Manages kind type) (files : Files) (interrupt : Option Nat)
    (out err : Sink) (s : MemoryStore) :
    (∀ words j account ns name request tag path, ofArgs (kind :: "save" :: words) = .ok j →
      j.command = .save account ns name request → request.IsComplete tag path →
      Entries.get? s.objects (.ofLocation type ns name) = none →
      (takeFault (.operation .get) s.faults).1 = none →
      ∃ i, ofArgs (kind :: "create" :: words) = .ok i ∧
        Ending.SavedAs s ⟨.get, type, ns, name⟩
          (j.mode.IsSupported ∧ ∃ order, Order.ofFile files path = .ok order)
          (i.perform files interrupt out err s) (j.perform files interrupt out err s)) ∧
    ∀ words i type' ns name request observed, ofArgs (kind :: "patch" :: words) = .ok i →
      i.command = .patch type' ns name request →
      (Store.get type ns name s).reply = .done (.ok observed) →
      request.tag = none ∧
      (∃ j account, ofArgs (kind :: "save" :: words) = .ok j ∧
        j.command = .save account ns name request ∧ j.mode = i.mode ∧ j.timeout = i.timeout) ∧
      ∀ words' j account, ofArgs (kind :: "save" :: words') = .ok j →
        j.command = .save account ns name request → j.mode = i.mode → j.timeout = i.timeout →
        j.perform files interrupt out err s = i.perform files interrupt out err s := by
  constructor
  · rintro words ⟨command, mode, timeout⟩ account ns name request tag path hj rfl hcomplete hmissing
      hfault
    obtain ⟨rfl, hi⟩ := Command.exists_create hkind hj rfl hcomplete
    exact ⟨_, hi, savedAs_create mode timeout account files interrupt out err hcomplete hmissing
      hfault⟩
  · -- The account is that of the words, but it makes no difference to what is found
    rintro words ⟨command, mode, timeout⟩ type' ns name request observed hi rfl hget
    obtain ⟨htag, account, htype, hj⟩ := Command.exists_save hkind hi rfl
    refine ⟨htag, ⟨_, account, hj, rfl, rfl, rfl⟩, ?_⟩
    rintro words' ⟨command, mode, timeout⟩ account' hj' rfl rfl rfl
    have hsaved := Command.type_of_save hkind hj rfl
    have hsaved' := Command.type_of_save hkind hj' rfl
    rw [← htype, hsaved, ← hsaved']
    exact perform_save_of_found mode timeout account' files interrupt out err request
      (hsaved'.symm ▸ hget)

/-- An order file with one entry. -/
private theorem exists_order {content : List UInt8}
    (hcontent : content = "order:\n- group:\n  - id: a\n".toUTF8.toList) :
    ∃ order, Order.ofFile ⟨[(["o"], .bytes content)]⟩ "o" = .ok order := by
  have hnul : "o".contains '\x00' = false := by cbv
  have hsize : ¬ Files.pathLimit < "o".utf8ByteSize := by decide
  have hempty : "o".isEmpty = false := by decide
  have hparts : Files.parts "o" = ["o"] := by
    rw [Files.parts, String.splitOn, String.splitOnAux, String.splitOnAux]
    decide +kernel
  have hstart : Files.start "o" = [] := by decide +kernel
  have hwalk : Files.walk ⟨[(["o"], .bytes content)]⟩ [] ["o"] = .ok (.bytes content) := rfl
  have htext : String.fromUTF8? ⟨content.toArray⟩ = some "order:\n- group:\n  - id: a\n" := by
    rw [hcontent]
    decide +kernel
  have hread : Files.readText ⟨[(["o"], .bytes content)]⟩ "o" =
      .ok "order:\n- group:\n  - id: a\n" := by
    simp only [Files.readText, hnul, hsize, hempty, hparts, hstart, hwalk, htext, if_false,
      Bool.false_eq_true, bind, Except.bind]
    rfl
  have hparse : Order.parse "order:\n- group:\n  - id: a\n" =
      .ok [.obj [("group", .arr [.obj [("id", .str "a")]])]] := by decide +kernel
  refine ⟨[.obj [("group", .arr [.obj [("id", .str "a")]])]], ?_⟩
  rw [Order.ofFile, hread]
  simp only [Except.mapError, bind, Except.bind, hparse]

/-- A builder that is made from an order file, and one that gets another stack. -/
theorem save_agrees_builder :
    let files : Files := ⟨[(["o"], .bytes "order:\n- group:\n  - id: a\n".toUTF8.toList)]⟩
    let stored : Json := .obj [("metadata", .obj [("name", .str "full")]),
      ("spec", .obj [("stack", .obj [("name", .str "tiny")]), ("tag", .str "r/full")])]
    let store : MemoryStore := { objects := [(.ofLocation .builder none "full", stored)] }
    let making := ["base", "--tag", "r/base", "--order", "o"]
    let changing := ["full", "--stack", "wide"]
    (∃ i j, ofArgs ("builder" :: "create" :: making) = .ok i ∧
      ofArgs ("builder" :: "save" :: making) = .ok j ∧
      (j.perform files none {} {} store).halt = (i.perform files none {} {} store).halt ∧
      (j.perform files none {} {} store).out = (i.perform files none {} {} store).out ∧
      (j.perform files none {} {} store).store.calls =
        ⟨.get, .builder, none, "base"⟩ :: (i.perform files none {} {} store).store.calls) ∧
    ∃ i j, ofArgs ("builder" :: "patch" :: changing) = .ok i ∧
      ofArgs ("builder" :: "save" :: changing ++ ["--service-account", "other"]) = .ok j ∧
      j.perform files none {} {} store = i.perform files none {} {} store := by
  intro files stored store making changing
  have hread : ∃ order, Order.ofFile files "o" = .ok order := exists_order rfl
  obtain ⟨hcreate, hpatch⟩ := save_agrees .builder files none {} {} store
  have hsave : ofArgs ("builder" :: "save" :: making) = .ok ⟨.save (.here "default") none "base"
      { tag := some "r/base", order := some "o" }, {}, .ofSeconds 600⟩ := by decide +kernel
  have hcomplete : Command.ChangeRequest.IsComplete { tag := some "r/base", order := some "o" }
      "r/base" "o" := ⟨rfl, by decide, rfl, by decide, by decide, by decide⟩
  -- No builder `base` is stored, so it is saved as it would be created.
  obtain ⟨i, hi, hsaved⟩ := hcreate making _ _ _ _ _ _ _ hsave rfl hcomplete (by decide +kernel) rfl
  obtain ⟨made, hcalls, hreaches, -⟩ := hsaved.calls
  refine ⟨⟨i, _, hi, hsave, hsaved.halt, hsaved.out, ?_⟩, ?_⟩
  · rw [hreaches ⟨List.mem_cons_self, hread⟩, hcalls]
    rfl
  · -- The builder `full` is stored, so it is saved as it would be patched.
    have hchange : ofArgs ("builder" :: "patch" :: changing) =
        .ok ⟨.patch .builder none "full" { stack := some "wide" }, {}, .ofSeconds 600⟩ := by
      decide +kernel
    have hother : ofArgs ("builder" :: "save" :: changing ++ ["--service-account", "other"]) =
        .ok ⟨.save (.here "other") none "full" { stack := some "wide" }, {}, .ofSeconds 600⟩ := by
      decide +kernel
    obtain ⟨observed, hget⟩ : ∃ observed,
        (Store.get .builder none "full" store).reply = .done (.ok observed) := ⟨_, rfl⟩
    obtain ⟨-, -, hagree⟩ := hpatch changing _ _ _ _ _ _ hchange rfl hget
    exact ⟨_, _, hchange, hother, hagree _ _ _ hother rfl rfl rfl⟩

/-- Without any files, nothing can be read. -/
private theorem ofFile_ne_ok (path : String) (order : List Json) :
    Order.ofFile {} path ≠ .ok order := by
  -- The only place there is is the root, which is a directory
  have hat : ∀ place content, Files.at? {} place = some content → content = .directory := by
    intro place content h
    simp only [Files.at?, List.find?_nil, List.any_nil, Bool.false_eq_true, if_false] at h
    split at h <;> cases h
    rfl
  have hwalk : ∀ (parts : List String) (place : Place) (content : FileContent),
      Files.walk {} place parts = .ok content → content = .directory := by
    intro parts
    induction parts with
    | nil =>
      intro place content h
      rw [Files.walk] at h
      split at h
      · rename_i hplace
        cases h
        exact hat place _ hplace
      · cases h
    | cons part parts ih =>
      intro place content h
      rw [Files.walk] at h
      split at h
      · cases h
      · cases h
      · split_ifs at h
        · exact ih _ _ h
        · exact ih _ _ h
        · exact ih _ _ h
  intro h
  obtain ⟨text, hread, -⟩ := Except.bind_ok_iff.1 (Except.mapError_ok_iff.1 h)
  rw [Except.mapError_ok_iff, Files.readText] at hread
  simp only at hread
  split at hread
  · cases hread
  split at hread
  · cases hread
  split at hread
  · cases hread
  obtain ⟨content, hcontent, htext⟩ := Except.bind_ok_iff.1 hread
  rw [hwalk _ _ _ hcontent] at htext
  cases htext

/-- An order file that is not there ends `save` before it looks for the builder. -/
theorem save_without_order_file :
    let words := ["base", "--tag", "r/base", "--order", "missing.yaml"]
    let store : MemoryStore := {}
    ∃ i j, ofArgs ("builder" :: "create" :: words) = .ok i ∧
      ofArgs ("builder" :: "save" :: words) = .ok j ∧
      Entries.get? store.objects (.ofLocation .builder none "base") = none ∧ store.faults = [] ∧
      (j.perform {} none {} {} store).store.calls ≠
        ⟨.get, .builder, none, "base"⟩ :: (i.perform {} none {} {} store).store.calls := by
  intro words store
  have hsave : ofArgs ("builder" :: "save" :: words) = .ok ⟨.save (.here "default") none "base"
      { tag := some "r/base", order := some "missing.yaml" }, {}, .ofSeconds 600⟩ := by decide +kernel
  have hcomplete : Command.ChangeRequest.IsComplete
      { tag := some "r/base", order := some "missing.yaml" } "r/base" "missing.yaml" :=
    ⟨rfl, by decide, rfl, by decide, by decide, by decide⟩
  obtain ⟨-, hcreate⟩ := Command.exists_create .builder hsave rfl hcomplete
  refine ⟨_, _, hcreate, hsave, rfl, rfl, fun hcalls => ?_⟩
  have hsaved := @savedAs_create {} (.ofSeconds 600) (.here "default") none "base" {} none {} {} store
    _ _ _ hcomplete rfl rfl
  -- Neither command gets as far as a request
  obtain ⟨made, hmade, -, hstops⟩ := hsaved.calls
  obtain ⟨rfl, hnone, -⟩ := hstops fun ⟨_, order, h⟩ => ofFile_ne_ok _ order h
  cases hnone.symm.trans hcalls

end Invocation

end BuilderControl
