import Leyu.Framework.Lifetime
import Leyu.Mqtt.Device

/-!
# The parsed document of a message

A handler works on the tree that `cJSON_Parse` gives it until it calls `cJSON_Delete`. Pointers
into the tree stay what they are; reading through one of them is a use of the tree.
-/

namespace Leyu

open Framework Program

/-- A pointer into the tree. -/
structure Node (α : Type) where
  target : α

/-- The fields every message has. -/
structure MessageNodes where
  timeStamp : Node Text
  serial : Node Text
  imei : Node Text
  body : Node Json

section

variable {σ α : Type}

def read (n : Node α) : Program σ α := do
  use
  pure n.target

def cJSONParse (o : Outside) (jsonStr : Text) : Program σ (Option (Node Json)) :=
  acquire ((o.cJSONParse jsonStr).map .mk)

def cJSONDelete : Program σ Unit := release

def cJSONGetObjectItem (object : Node Json) (name : Text) : Program σ (Option (Node Json)) := do
  let json ← read object
  pure ((json.getObjectItem name).map .mk)

/-- A test such as `cJSON_IsString`, and the pointer to what it has found. A null pointer fails it
without being read. -/
def cJSONIs (view : Json → Option α) : Option (Node Json) → Program σ (Option (Node α))
  | none => pure none
  | some item => do
      let json ← read item
      pure ((view json).map .mk)

def cJSONIsString : Option (Node Json) → Program σ (Option (Node Text)) := cJSONIs Json.valuestring?

/-- A chain of `cJSON_IsString` tests: none is made behind one that fails. -/
def allStrings : List (Option (Node Json)) → Program σ (Option (List (Node Text)))
  | [] => pure (some [])
  | item :: items => do
      match ← cJSONIsString item with
      | none => pure none
      | some text => do
          match ← allStrings items with
          | none => pure none
          | some texts => pure (some (text :: texts))

def getItems (object : Node Json) : List Text → Program σ (List (Option (Node Json)))
  | [] => pure []
  | name :: names => do
      let item ← cJSONGetObjectItem object name
      let items ← getItems object names
      pure (item :: items)

/-- The members of these names, which must all be strings. -/
def stringItems (object : Node Json) (names : List Text) :
    Program σ (Option (List (Node Text))) := do
  let items ← getItems object names
  allStrings items

/-- The reads of a log line. -/
def logTexts (texts : List (Node Text)) : Program σ Unit :=
  texts.foldlM (fun _ text => do let _ ← read text; pure ()) ()

/-- The beginning of the handlers: the document is parsed, and the fields of the message are looked
up and checked. -/
def withMessage (o : Outside) (jsonStr : Text) (handle : MessageNodes → Program σ Unit) :
    Program σ Unit := do
  match ← cJSONParse o jsonStr with
  | none => pure ()
  | some root => do
      let timeStamp ← cJSONGetObjectItem root "timeStamp".toList
      let serial ← cJSONGetObjectItem root "serial".toList
      let imei ← cJSONGetObjectItem root "imei".toList
      let body ← cJSONGetObjectItem root "body".toList
      match ← allStrings [timeStamp, serial, imei] with
      | some [timeStamp, serial, imei] => do
          match ← cJSONIs Json.object? body with
          | some body => handle ⟨timeStamp, serial, imei, body⟩
          | none => cJSONDelete
      | _ => cJSONDelete

theorem reads_read (n : Node α) : Reads (read n : Program σ α) n.target :=
  reads_use.bind (reads_pure _)

theorem reads_getObjectItem (object : Node Json) (name : Text) :
    Reads (cJSONGetObjectItem object name : Program σ _)
      ((object.target.getObjectItem name).map .mk) :=
  (reads_read object).bind (reads_pure _)

theorem reads_is (view : Json → Option α) (item : Option (Node Json)) :
    Reads (cJSONIs view item : Program σ _)
      ((item.bind fun item => view item.target).map .mk) := by
  cases item with
  | none => exact reads_pure _
  | some item => exact (reads_read item).bind (reads_pure _)

theorem reads_isItem (view : Json → Option α) (item : Option Json) :
    Reads (cJSONIs view (item.map .mk) : Program σ _) ((item.bind view).map .mk) := by
  have h := reads_is (σ := σ) view (item.map .mk)
  rw [Option.bind_map] at h
  exact h

private def stringAt (item : Option (Node Json)) : Option Text :=
  item.bind fun item => item.target.valuestring?

private theorem stringAt_item (json : Json) (name : Text) :
    stringAt ((json.getObjectItem name).map .mk) = json.stringItem name := Option.bind_map

private theorem reads_allStrings (items : List (Option (Node Json))) :
    Reads (allStrings items : Program σ _)
      ((items.mapM stringAt).map (·.map .mk)) := by
  induction items with
  | nil => exact reads_pure _
  | cons item items ih =>
    have htext : Reads (cJSONIsString item : Program σ _) ((stringAt item).map .mk) :=
      reads_is Json.valuestring? item
    refine htext.bind ?_
    rw [List.mapM_cons]
    cases stringAt item with
    | none => exact reads_pure _
    | some text =>
      refine ih.bind ?_
      cases items.mapM stringAt with
      | none => exact reads_pure _
      | some texts => exact reads_pure _

private theorem reads_getItems (object : Node Json) (names : List Text) :
    Reads (getItems object names : Program σ _)
      (names.map fun name => (object.target.getObjectItem name).map .mk) := by
  induction names with
  | nil => exact reads_pure _
  | cons name names ih =>
    exact (reads_getObjectItem object name).bind (ih.bind (reads_pure _))

theorem reads_stringItems (object : Node Json) (names : List Text) :
    Reads (stringItems object names : Program σ _)
      ((names.mapM fun name => object.target.stringItem name).map (·.map .mk)) := by
  have h := (reads_getItems (σ := σ) object names).bind (reads_allStrings _)
  rw [List.mapM_map, show (stringAt ∘ fun name => (object.target.getObjectItem name).map Node.mk) =
    fun name => object.target.stringItem name from funext (stringAt_item object.target)] at h
  exact h

theorem reads_logTexts (texts : List (Node Text)) : Reads (logTexts texts : Program σ Unit) () := by
  induction texts with
  | nil => exact reads_pure ()
  | cons text texts ih => exact ((reads_read text).bind (reads_pure ())).bind ih

def Message.nodes (m : Message) : MessageNodes := ⟨⟨m.timeStamp⟩, ⟨m.serial⟩, ⟨m.imei⟩, ⟨m.body⟩⟩

theorem withMessage_run (o : Outside) (jsonStr : Text) (handle : MessageNodes → Program σ Unit)
    (s : σ) :
    withMessage o jsonStr handle .fresh s =
      match o.cJSONParse jsonStr with
      | none => (.returned (), .fresh, s)
      | some root =>
          match messageOf root with
          | none => (.returned (), Lifetime.fresh.acquire.release, s)
          | some m => handle m.nodes Lifetime.fresh.acquire s := by
  unfold withMessage cJSONParse
  rw [bind_returned rfl]
  cases o.cJSONParse jsonStr with
  | none => rfl
  | some root =>
    show (cJSONGetObjectItem _ _ >>= _) Lifetime.fresh.acquire s = _
    rw [(reads_getObjectItem _ _).run _ rfl, (reads_getObjectItem _ _).run _ rfl,
      (reads_getObjectItem _ _).run _ rfl, (reads_getObjectItem _ _).run _ rfl,
      (reads_allStrings _).run _ rfl]
    rw [List.mapM_cons, List.mapM_cons, List.mapM_cons, List.mapM_nil, stringAt_item, stringAt_item,
      stringAt_item]
    dsimp only [messageOf]
    cases root.stringItem "timeStamp".toList with
    | none => rfl
    | some timeStamp =>
      cases root.stringItem "serial".toList with
      | none => rfl
      | some serial =>
        cases root.stringItem "imei".toList with
        | none => rfl
        | some imei =>
          show (cJSONIs _ _ >>= _) Lifetime.fresh.acquire s = _
          rw [(reads_isItem _ _).run _ rfl]
          cases (root.getObjectItem "body".toList).bind Json.object? with
          | none => rfl
          | some body => rfl

theorem orderly_withMessage {handle : MessageNodes → Program σ Unit}
    (h : ∀ m : Message, Releases (handle m.nodes)) (o : Outside) (jsonStr : Text) (s : σ) :
    Orderly (withMessage o jsonStr handle .fresh s) := by
  rw [withMessage_run]
  cases o.cJSONParse jsonStr with
  | none => exact orderly_fresh _ s
  | some root =>
    dsimp only
    cases messageOf root with
    | none => exact releases_release.orderly s
    | some m => exact (h m).orderly s

end

end Leyu
