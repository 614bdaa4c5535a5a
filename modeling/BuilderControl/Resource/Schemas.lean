import BuilderControl.Schema
import BuilderControl.Resource.Type

/-! # Schemas of the resource types

Records of the cluster's own types are lenient: they take no lists, `null` counts as absent and the
last of repeated members counts.  Records of the build types are strict. -/

namespace BuilderControl.Schemas

open Schema

/-- A field that may be absent. -/
def optional (key : String) (schema : Schema) : FieldInfo × Schema := (⟨key, .optional⟩, schema)

def required (key : String) (schema : Schema) : FieldInfo × Schema := (⟨key, .required⟩, schema)

/-- A field that has a value when it is absent, and is always written. -/
def defaulted (key : String) (value : Json) (schema : Schema) : FieldInfo × Schema :=
  (⟨key, .defaulted value true⟩, schema)

/-- A field that has a value when it is absent, and is not written with that value. -/
def omitted (key : String) (value : Json) (schema : Schema) : FieldInfo × Schema :=
  (⟨key, .defaulted value false⟩, schema)

def lenient (key : String) (value : Json) (schema : Schema) : FieldInfo × Schema :=
  (⟨key, .lenient value⟩, schema)

/-- A record of the cluster's own types. -/
def cluster (title : String) (fields : List (FieldInfo × Schema)) : Schema :=
  .record { title := title } fields []

/-- A record of the build types that is also read from a list. -/
def plain (title : String) (fields : List (FieldInfo × Schema)) : Schema :=
  .record { title := "struct " ++ title, positional := true, unique := true } fields []

/-! ### Types of the cluster -/

def managedFieldsEntry : Schema := cluster "ManagedFieldsEntry"
  [optional "apiVersion" .text, optional "fieldsType" .text, optional "fieldsV1" .anything,
   optional "manager" .text, optional "operation" .text, optional "subresource" .text,
   optional "time" .instant]

def ownerReference : Schema := cluster "OwnerReference"
  [lenient "apiVersion" (.str "") .text, optional "blockOwnerDeletion" .flag,
   optional "controller" .flag, lenient "kind" (.str "") .text, lenient "name" (.str "") .text,
   lenient "uid" (.str "") .text]

def objectMetaFields : List (FieldInfo × Schema) :=
  [optional "annotations" (.table .text), optional "creationTimestamp" .instant,
   optional "deletionGracePeriodSeconds" (.integer .signed64),
   optional "deletionTimestamp" .instant, optional "finalizers" (.list .text),
   optional "generateName" .text, optional "generation" (.integer .signed64),
   optional "labels" (.table .text), optional "managedFields" (.list managedFieldsEntry),
   optional "name" .text, optional "namespace" .text,
   optional "ownerReferences" (.list ownerReference), optional "resourceVersion" .text,
   optional "selfLink" .text, optional "uid" .text]

def objectMeta : Schema := cluster "ObjectMeta" objectMetaFields

def objectReference : Schema := cluster "ObjectReference"
  [optional "apiVersion" .text, optional "fieldPath" .text, optional "kind" .text,
   optional "name" .text, optional "namespace" .text, optional "resourceVersion" .text,
   optional "uid" .text]

def localObjectReference : Schema := cluster "LocalObjectReference"
  [lenient "name" (.str "") .text]

/-- Fields of an object of a core type, whose identity is fixed. -/
def core (type : ResourceType) (fields : List (FieldInfo × Schema)) : Schema :=
  cluster type.name ((⟨"apiVersion", .fixed type.apiVersion⟩, .text) ::
    (⟨"kind", .fixed type.name⟩, .text) :: lenient "metadata" (.obj []) objectMeta :: fields)

def secret : Schema := core .secret
  [optional "data" (.table .bytes), optional "immutable" .flag,
   optional "stringData" (.table .text), optional "type" .text]

def serviceAccount : Schema := core .serviceAccount
  [optional "automountServiceAccountToken" .flag,
   optional "imagePullSecrets" (.list localObjectReference),
   optional "secrets" (.list objectReference)]

/-! ### Types of the build service -/

def condition : Schema := plain "Condition"
  [required "type" .text, required "status" .text, optional "reason" .text,
   optional "message" .text, optional "lastTransitionTime" .text]

def status : Schema :=
  .record { title := "struct Status", unique := true, keepsRest := true }
    [optional "observedGeneration" (.integer .signed64),
     omitted "conditions" (.arr []) (.list condition), optional "latestImage" .text] []

def buildpackRef : Schema := plain "BuildpackRef"
  [required "id" .text, omitted "version" (.str "") .text, omitted "optional" (.bool false) .flag]

def orderEntry : Schema := plain "OrderEntry" [defaulted "group" (.arr []) (.list buildpackRef)]

/-- Fields that the specs of both builder types share. -/
def builderFields : List (FieldInfo × Schema) :=
  [defaulted "tag" (.str "") .text, defaulted "stack" (.obj []) objectReference,
   defaulted "store" (.obj []) objectReference, omitted "order" (.arr []) (.list orderEntry)]

def clusterBuilderSpec : Schema :=
  .record { title := "struct ClusterBuilderSpec", unique := true }
    [defaulted "serviceAccountRef" (.obj []) objectReference] builderFields

def builderSpec : Schema :=
  .record { title := "struct NamespacedBuilderSpec", unique := true }
    [omitted "serviceAccount" (.str "") .text] builderFields

def imageSpec : Schema := plain "ImageSpec"
  [defaulted "tag" (.str "") .text, defaulted "builder" (.obj []) objectReference,
   omitted "serviceAccount" (.str "") .text, omitted "source" .null .anything]

def stackImage : Schema := plain "StackImage" [required "image" .text]

/-- The image of a stack that names none. -/
def noImage : Json := .obj [("image", .str "")]

def clusterStackSpec : Schema := plain "ClusterStackSpec"
  [defaulted "id" (.str "") .text, defaulted "buildImage" noImage stackImage,
   defaulted "runImage" noImage stackImage]

def storeImage : Schema := plain "StoreImage" [required "image" .text]

def clusterStoreSpec : Schema := plain "ClusterStoreSpec"
  [defaulted "sources" (.arr []) (.list storeImage)]

/-- An object of a build type with the given spec. -/
def build (type : ResourceType) (spec : Schema) : Schema :=
  .record { title := "struct " ++ type.name, unique := true, identified := true }
    [required "metadata" objectMeta, required "spec" spec, optional "status" status] []

def image : Schema := build .image imageSpec
def builder : Schema := build .builder builderSpec
def clusterBuilder : Schema := build .clusterBuilder clusterBuilderSpec
def clusterStack : Schema := build .clusterStack clusterStackSpec
def clusterStore : Schema := build .clusterStore clusterStoreSpec

/-- An object of a type that is not known: everything in it is kept. -/
def untyped : Schema :=
  .record { title := "struct DynamicObject", unique := true, identified := true, keepsRest := true }
    [defaulted "metadata" (.obj []) objectMeta] []

end BuilderControl.Schemas

namespace BuilderControl

def ResourceType.schema : ResourceType → Schema
  | .secret => Schemas.secret
  | .serviceAccount => Schemas.serviceAccount
  | .image => Schemas.image
  | .builder => Schemas.builder
  | .clusterBuilder => Schemas.clusterBuilder
  | .clusterStack => Schemas.clusterStack
  | .clusterStore => Schemas.clusterStore

end BuilderControl
