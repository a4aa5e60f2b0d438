import Wireframe.Codec.Record

/-!
Contract: what a node reacts to, and its state.

Owns:
- `Event`, a trigger with its action, and the target of a navigation;
- `State`, a node's named value and its bindings;
- `Media`, what an image shows;
- their JSON forms.
-/

namespace Wireframe

open Codec Json

/-- What sets an event off. -/
inductive Trigger where
  | click
  | submit
  | change
  | mount
  | hover
deriving DecidableEq

namespace Trigger

def all : List Trigger := [.click, .submit, .change, .mount, .hover]

def name : Trigger → String
  | .click => "onClick"
  | .submit => "onSubmit"
  | .change => "onChange"
  | .mount => "onMount"
  | .hover => "onHover"

end Trigger

/-- What an action does. -/
inductive ActionKind where
  | navigate
  | emit
  | mutateState
  | openModal
  | closeModal
deriving DecidableEq

namespace ActionKind

def all : List ActionKind := [.navigate, .emit, .mutateState, .openModal, .closeModal]

def name : ActionKind → String
  | .navigate => "navigate"
  | .emit => "emit"
  | .mutateState => "mutateState"
  | .openModal => "openModal"
  | .closeModal => "closeModal"

end ActionKind

/-- What an event does, with free data. -/
structure Action where
  kind : ActionKind
  payload : Option (List (String × Value))
deriving BEq

namespace Action

def codec : Codec Action :=
  Codec.record "EventAction"
    (.cons (.needed "type" (.choice ActionKind.name ActionKind.all)) <|
      .cons (.optional "payload" .jsonObject) .nil)
    (fun (kind, payload, ()) => ⟨kind, payload⟩)
    (fun action => (action.kind, action.payload, ()))

end Action

/-- A reaction of a node. -/
structure Event where
  id : String
  trigger : Trigger
  action : Action
  description : Option String
deriving BEq

namespace Event

def codec : Codec Event :=
  Codec.record "NodeEvent"
    (.cons (.needed "id" .string) <|
      .cons (.needed "trigger" (.choice Trigger.name Trigger.all)) <|
      .cons (.needed "action" Action.codec) <|
      .cons (.optional "description" .string) .nil)
    (fun (id, trigger, action, description, ()) => ⟨id, trigger, action, description⟩)
    (fun event => (event.id, event.trigger, event.action, event.description, ()))

/-- Where a navigation leads: the text under `href` in the payload. -/
def navigationTarget (event : Event) : Option String :=
  match event.action.kind, event.action.payload with
  | .navigate, some payload =>
      match Value.member? "href" payload with
      | some (.string target) => some target
      | _ => none
  | _, _ => none

end Event

/-- The state of a node. -/
structure State where
  name : Option String
  initialValue : Option Value
  bindings : Codec.Dict String
deriving BEq

namespace State

def codec : Codec State :=
  Codec.record "NodeState"
    (.cons (.optional "name" .string) <|
      .cons (.optional "initialValue" .json) <|
      .cons (.unlessEmpty "bindings" (.dict .string)) .nil)
    (fun (name, initialValue, bindings, ()) => ⟨name, initialValue, bindings⟩)
    (fun state => (state.name, state.initialValue, state.bindings, ()))

end State

/-- What a node shows. -/
structure Media where
  uri : String
  description : Option String
deriving BEq

namespace Media

def codec : Codec Media :=
  Codec.record "Media"
    (.cons ⟨"uri", .string, .required, ["url"]⟩ <|
      .cons (.optional "description" .string) .nil)
    (fun (uri, description, ()) => ⟨uri, description⟩)
    (fun media => (media.uri, media.description, ()))

end Media

end Wireframe
