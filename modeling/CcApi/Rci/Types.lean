/-
The data of the RCI service (`ccapi_rci.h`, `ccapi_definitions.h`, and the connector's remote-config record).

A pointer is the name of what it points to, NULL is `none`. A stored enumeration is an `Option`, `none` standing for
memory that holds no enumerator: the instance record is not initialised before its first use. The unions are modelled by
the member that was written; reading another member gives 0 or NULL. Names are kept as in a build with
RCI_PARSER_USES_COLLECTION_NAMES and RCI_PARSER_USES_ELEMENT_NAMES; what RCI_ENUMS_AS_STRINGS adds is in `Enums`.
-/
import CcApi.Platform

namespace CcApi.Rci

/-! ## Enumerations -/

/-- the user's callbacks, `ccapi_rci_data_t` -/
inductive CbName where
  | startSession
  | endSession
  | startAction
  | endAction
  | startGroup
  | endGroup
  | lockGroupInstances
  | setGroupInstances
  | removeGroupInstance
  | unlockGroupInstances
  | startList
  | endList
  | lockListInstances
  | setListInstances
  | removeListInstance
  | unlockListInstances
  | getElement
  | setElement
  | setAndTransformElement
  | doCommand
  | setFactoryDefaults
  | reboot
deriving DecidableEq, Repr

/-- `connector_request_id_remote_config_t` -/
inductive RequestId where
  | sessionStart
  | actionStart
  | doCommand
  | reboot
  | setFactoryDef
  | groupInstancesLock
  | groupInstancesSet
  | groupInstanceRemove
  | groupInstancesUnlock
  | groupStart
  | listInstancesLock
  | listInstancesSet
  | listInstanceRemove
  | listInstancesUnlock
  | listStart
  | elementProcess
  | listEnd
  | groupEnd
  | actionEnd
  | sessionEnd
  | sessionCancel
deriving DecidableEq, Repr

/-- `ccapi_rci_action_t` -/
inductive Action where
  | set
  | query
  | doCommand
  | reboot
  | setFactoryDefaults
deriving DecidableEq, Repr

/-- `ccapi_rci_group_type_t` -/
inductive GroupType where
  | setting
  | state
deriving DecidableEq, Repr

/-- `ccapi_rci_collection_type_t` -/
inductive CollectionType where
  | fixedArray
  | variableArray
  | fixedDictionary
  | variableDictionary
deriving DecidableEq, Repr

/-- `ccapi_rci_query_setting_attribute_compare_to_t` -/
inductive CompareTo where
  | none
  | current
  | stored
  | defaults
deriving DecidableEq, Repr

/-- `ccapi_rci_query_setting_attribute_source_t` -/
inductive Source where
  | current
  | stored
  | defaults
deriving DecidableEq, Repr

/-- `connector_element_value_type_t`, and `ccapi_rci_element_type_t` but for NOT_SET -/
inductive ElementType where
  | string
  | multilineString
  | password
  | int32
  | uint32
  | hex32
  | x0hex32
  | float
  | enum
  | onOff
  | boolean
  | ipv4
  | fqdnv4
  | fqdnv6
  | list
  | macAddr
  | datetime
  | refEnum
deriving DecidableEq, Repr

/-- `ccapi_rci_thread_status_t` -/
inductive RciThreadStatus where
  | idle
  | cbQueued
  | cbProcessed
deriving DecidableEq, Repr

/-- `ccapi_callback_type` -/
inductive CbType where
  | none
  | base
  | lock
  | element
  | transform
deriving DecidableEq, Repr

/-! ## Records -/

/-- `ccapi_group_item_t` and `ccapi_list_item_t` -/
inductive Item where
  | index (k : ℕ)
  | key (k : Option ℕ)
  | count (k : ℕ)
  | dictionary (entries : ℕ) (keys : Option ℕ)
deriving DecidableEq, Repr

def Item.getIndex : Item → ℕ
  | .index k => k
  | _ => 0

def Item.getKey : Item → Option ℕ
  | .key k => k
  | _ => none

def Item.getCount : Item → ℕ
  | .count k => k
  | _ => 0

def Item.getDictionary : Item → ℕ × Option ℕ
  | .dictionary entries keys => (entries, keys)
  | _ => (0, none)

/-- a group or a list level -/
structure Place where
  id : ℕ
  collectionType : Option CollectionType
  item : Item
  name : Option ℕ
deriving DecidableEq, Repr

structure ListInfo where
  depth : ℕ
  data : ℕ → Place
  /-- the indices at which the handler has accessed `data`, in order -/
  touched : List ℕ

/-- `element`; a type of `none` is CCAPI_RCI_ELEMENT_TYPE_NOT_SET -/
structure ElementInfo where
  id : ℕ
  name : Option ℕ
  type : Option ElementType
deriving DecidableEq, Repr

structure QuerySetting where
  compareTo : Option CompareTo
  source : Option Source
  matches_ : Bool
deriving DecidableEq, Repr

structure DoCommand where
  target : Option ℕ
  request : Option ℕ
  response : Option ℕ
deriving DecidableEq, Repr

/-- `ccapi_rci_info_t` -/
structure RciInfo where
  groupType : Option GroupType
  group : Place
  list : ListInfo
  element : ElementInfo
  querySetting : QuerySetting
  embedTransformedValues : Bool
  doCommand : DoCommand
  action : Option Action
  errorHint : Option ℕ
  userContext : Option ℕ

/-- `callback`; the members of its union share their storage: second is `item` or `value` -/
structure Callback where
  type : CbType
  function : Option CbName
  second : Option ℕ
  transformed : Option ℕ
  error : ℕ
deriving DecidableEq, Repr

/-- `service.rci` -/
structure Svc where
  info : RciInfo
  callback : Callback
  status : RciThreadStatus

/-- the user's `ccapi_rci_data_t`, and RCI_LIST_MAX_DEPTH of the generated code -/
structure Config where
  registered : CbName → Bool
  listMaxDepth : ℕ

/-- `attribute` of the connector's record -/
structure Attribute where
  source : Source
  compareTo : CompareTo
  embedTransformedValues : Bool
  target : Option ℕ
deriving DecidableEq, Repr

/-- `element` of the connector's record; command is the string at `value` -/
structure ElementReq where
  id : ℕ
  name : Option ℕ
  type : ElementType
  value : Option ℕ
  command : Option ℕ
deriving DecidableEq, Repr

/-- `response` of the connector's record; item is the address of its `item` -/
structure Response where
  errorHint : Option ℕ
  compareMatches : Bool
  elementValue : Option ℕ
  item : ℕ
deriving DecidableEq, Repr

/-- `connector_remote_config_t` -/
structure RemoteConfig where
  action : Action
  groupType : GroupType
  group : Place
  listDepth : ℕ
  listLevel : ℕ → Place
  element : ElementReq
  attributes : Attribute
  userContext : Option ℕ
  errorId : ℕ
  response : Response

end CcApi.Rci
