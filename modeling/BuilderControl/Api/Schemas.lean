import BuilderControl.Resource.Schemas

/-! # Schemas of what the API server answers -/

namespace BuilderControl.Api.Schemas

open BuilderControl.Schemas

def unsigned32 : IntegerRange := ⟨"u32", 0, Nat.pow 2 32 - 1⟩

/-- A refusal. -/
def errorResponse : Schema := plain "ErrorResponse"
  [required "status" .text, defaulted "message" (.str "") .text, defaulted "reason" (.str "") .text,
   required "code" (.integer .unsigned16)]

def statusCause : Schema := plain "StatusCause"
  [defaulted "reason" (.str "") .text, defaulted "message" (.str "") .text,
   defaulted "field" (.str "") .text]

def statusDetails : Schema := plain "StatusDetails"
  [defaulted "name" (.str "") .text, defaulted "group" (.str "") .text,
   defaulted "kind" (.str "") .text, defaulted "uid" (.str "") .text,
   defaulted "causes" (.arr []) (.list statusCause),
   defaulted "retryAfterSeconds" (.num (.int 0)) (.integer unsigned32)]

/-- How a deletion went. -/
def status : Schema := plain "Status"
  [optional "status" (.choice ["Success", "Failure"]),
   defaulted "code" (.num (.int 0)) (.integer .unsigned16), defaulted "message" (.str "") .text,
   defaulted "reason" (.str "") .text, optional "details" statusDetails]

def listMeta : Schema := cluster "ListMeta"
  [optional "continue" .text, optional "remainingItemCount" (.integer .signed64),
   optional "resourceVersion" .text, optional "selfLink" .text]

/-- A page of a list of objects. -/
def page (item : Schema) : Schema :=
  .record { title := "struct ObjectList", unique := true, identified := true }
    [defaulted "metadata" (.obj []) listMeta, (⟨"items", .nullable (.arr [])⟩, .list item)] []

def bookmarkMeta : Schema := plain "BookmarkMeta"
  [required "resourceVersion" .text, defaulted "annotations" (.obj []) (.table .text)]

/-- Says up to which version everything was reported. -/
def bookmark : Schema :=
  .record { title := "struct Bookmark", unique := true } [required "metadata" bookmarkMeta]
    [required "apiVersion" .text, required "kind" .text]

end BuilderControl.Api.Schemas
