import Consignment.Condition.Reader
import Consignment.Fault
import Consignment.PackageId
import Consignment.Value.Shown

namespace Consignment

/-!
# Why an operation fails

A failure of the packaging is one of a few kinds, and each kind lists its causes.
The wording of all of them is in the `message` functions of this module, so that
the rest of the library names causes only.

The last kind is a fault of the layers below that no rule of the packaging turned
into a cause of its own.
-/

/-- Why input data are refused. -/
inductive InvalidInput where
  | packageId (text : String)
  | scheme (scheme context url : String)
  | label (value : Value)
  /-- A field of a label is missing or no integer. -/
  | labelField (value : Value) (fault : Fault)
  | parcel (value : Value)
  | conditions (value : Value)
  /-- The whole invoice is no mapping; the kind it is instead. -/
  | invoice (kind : String)
  | header (value : Value)
  | noPackageId
  | group (value : Value)
  | parcels (value : Value)
  | textList (field : String) (value : Value)
  | textMap (field : String) (value : Value)
  | feature (field : String) (value : Value)

namespace InvalidInput

def message : InvalidInput → String
  | packageId text => "无效的包标识 '" ++ text ++ "'，格式应为 name/version"
  | scheme found context url =>
    "不允许的 URL 协议 '" ++ found ++ "'"
      ++ (if context.isEmpty then "" else " (" ++ context ++ ")")
      ++ "，仅支持 http/https: " ++ url
  | label value => "无效的 parcel label: " ++ value.shown
  | labelField value fault =>
    "无效的 parcel label: " ++ value.shown ++ " (" ++ fault.message ++ ")"
  | parcel value => "无效的 parcel: " ++ value.shown
  | conditions value => "无效的 parcel conditions: " ++ value.shown
  | invoice kind => "invoice 必须是映射，实际为 " ++ kind
  | header value => "invoice 的 bindle 头必须是映射: " ++ value.shown
  | noPackageId => "invoice 缺少 package_id"
  | group value => "无效的 group: " ++ value.shown
  | parcels value => "invoice 的 parcel 必须是列表: " ++ value.shown
  | textList field value => field ++ " 必须是字符串列表，实际为 " ++ value.shown
  | textMap field value => field ++ " 必须是 字符串 -> 字符串 的映射，实际为 " ++ value.shown
  | feature field value => field ++ " 必须是映射，实际为 " ++ value.shown

/-- The value that the message shows, where it shows one. -/
def value? : InvalidInput → Option Value
  | label value | labelField value _ | parcel value | conditions value | header value
  | group value | parcels value | textList _ value | textMap _ value | feature _ value => some value
  | packageId _ | scheme _ _ _ | invoice _ | noPackageId => none

/-- The fields at fault, where the cause names any. -/
def fields : InvalidInput → List String
  | label _ | labelField _ _ => ["label"]
  | conditions _ => ["conditions"]
  | header _ => ["bindle"]
  | parcels _ => ["parcel"]
  | textList field _ | textMap field _ | feature field _ => [field]
  | packageId _ | scheme _ _ _ | parcel _ | invoice _ | noPackageId | group _ => []

end InvalidInput

/-- Why a manifest is refused.  A label says which table of the manifest is meant. -/
inductive ManifestFault where
  | malformed (fault : Fault)
  | notMap
  | noPackage
  | unknownFields (label : String) (keys : List Value)
  | missingField (label field : String)
  | emptyField (label field : String)
  | notText (label field kind : String)
  | notTexts (label field : String)
  | notTextMap (field : String)
  | notTables (field : String)
  | externalNotTable (label : String)
  | externalId (label : String) (cause : InvalidInput)
  /-- A handler names both its own module and a foreign one, or neither. -/
  | ambiguousHandler (route : String)

namespace ManifestFault

def message : ManifestFault → String
  | malformed fault => "YAML 语法错误: " ++ fault.message
  | notMap => "清单顶层必须是映射"
  | noPackage => "缺少 [package] 段"
  | unknownFields label keys =>
    label ++ " 中有未知字段: " ++ String.intercalate ", " (Text.sorted (keys.map Value.plain))
  | missingField label field => label ++ " 缺少字段 '" ++ field ++ "'"
  | emptyField label field => label ++ " 字段 '" ++ field ++ "' 不能为空"
  | notText label field kind =>
    label ++ " 字段 '" ++ field ++ "' 必须是字符串 (实际为 " ++ kind ++ "，数字形式的值请加引号)"
  | notTexts label field => label ++ " 字段 '" ++ field ++ "' 必须是字符串列表"
  | notTextMap field => "'" ++ field ++ "' 必须是 字符串 -> 字符串 的映射"
  | notTables field => "[[" ++ field ++ "]] 必须是表的列表"
  | externalNotTable label => label ++ " 的 external 必须是表"
  | externalId label cause => label ++ ": " ++ cause.message
  | ambiguousHandler route => "route " ++ route ++ " 的 handler 必须且只能指定 name 或 external 之一"

/-- The values that the message shows. -/
def values : ManifestFault → List Value
  | unknownFields _ keys => keys
  | _ => []

end ManifestFault

/-- Why a manifest file is not found or not read. -/
inductive ManifestFileFault where
  | unreadable (path : String) (fault : Fault)
  | absent (path : String)
  | noCandidate (directory suggestion : String)
  | severalCandidates (directory : String) (names : List String)

namespace ManifestFileFault

def message : ManifestFileFault → String
  | unreadable path fault => "无法读取清单 " ++ path ++ ": " ++ fault.message
  | absent path => "清单不存在: " ++ path
  | noCandidate directory suggestion => "目录 " ++ directory ++ " 中没有清单文件，请创建 " ++ suggestion
  | severalCandidates directory names =>
    "目录 " ++ directory ++ " 中有多个清单文件 (" ++ String.intercalate ", " names
      ++ ")，请指定具体文件"

end ManifestFileFault

inductive FileFault where
  | unreadable (path entry : String) (fault : Fault)
  | outside (path base : String)
  | notCopied (name source target : String) (fault : Fault)
  | invoiceNotWritten (directory : String) (fault : Fault)

namespace FileFault

def message : FileFault → String
  | unreadable path entry fault => "无法读取 " ++ path ++ " (" ++ entry ++ "): " ++ fault.message
  | outside path base => path ++ " 不在基准目录 " ++ base ++ " 下"
  | notCopied name source target fault =>
    "暂存 parcel " ++ name ++ " 失败: " ++ source ++ " -> " ++ target ++ ": " ++ fault.message
  | invoiceNotWritten directory fault => "写出 invoice 失败: " ++ directory ++ ": " ++ fault.message

end FileFault

/-- Why the invoice of a foreign package is not obtained. -/
inductive FetchFault where
  | status (id : PackageId) (code reason : String)
  | network (id : PackageId) (reason : String)
  | malformed (id : PackageId)
  | connection (id : PackageId) (text : String)
  | notStaged (id : PackageId) (path : String)
  | unreadable (id : PackageId) (path : String) (fault : Fault)
  | invalid (id : PackageId) (cause : InvalidInput)
  | otherPackage (id found : PackageId)

namespace FetchFault

def message : FetchFault → String
  | status id code reason => "拉取 " ++ id.text ++ " 失败: HTTP 错误 " ++ code ++ ": " ++ reason
  | network id reason => "拉取 " ++ id.text ++ " 失败: 网络错误: " ++ reason
  | malformed id => "拉取 " ++ id.text ++ " 失败: 响应格式错误: <decode error>"
  | connection id text => "拉取 " ++ id.text ++ " 失败: " ++ text
  | notStaged id path => "本地暂存目录中没有包 " ++ id.text ++ ": " ++ path
  | unreadable id path fault => "读取 " ++ id.text ++ " 失败: " ++ path ++ ": " ++ fault.message
  | invalid id cause => "包 " ++ id.text ++ " 的 invoice 无效: " ++ cause.message
  | otherPackage id found => "请求的是 " ++ id.text ++ "，返回的 invoice 却是 " ++ found.text

end FetchFault

inductive ConfigFault where
  | unreadable (path : String) (fault : Fault)
  | manifestNames (path : String)
  | maxWorkers (path : String)
  /-- Foreign packages are needed and there is nowhere to get them from. -/
  | noSource

namespace ConfigFault

def message : ConfigFault → String
  | unreadable path fault => "无法读取配置文件 " ++ path ++ ": " ++ fault.message
  | manifestNames path => "配置项 manifest_names 必须是非空列表: " ++ path
  | maxWorkers path => "配置项 max_workers 必须 >= 1: " ++ path
  | noSource => "清单包含外部引用，但未设置包仓库地址 (--server / $BINDLE_URL) 或 --import-dir"

end ConfigFault

inductive Failure where
  | config (cause : ConfigFault)
  | invalid (cause : InvalidInput)
  /-- A manifest is refused; the source is where it came from, or empty. -/
  | manifest (source : String) (cause : ManifestFault)
  | manifestFile (cause : ManifestFileFault)
  | noEntries (source : String)
  | condition (fault : Condition.SyntaxFault)
  | files (cause : FileFault)
  /-- The invoice of a referenced package is not among those given. -/
  | invoiceMissing (entry : String) (id : PackageId)
  /-- A package has no parcel of a handler id; `importing` is the reference that asked. -/
  | handlerMissing (importing : Option String) (id : PackageId) (handlerId : String)
      (available : List String)
  /-- Dependencies of a parcel are asked for that is no handler of the package. -/
  | notHandler (importing : Option String) (id : PackageId) (parcel : String)
  | fetch (cause : FetchFault)
  | nameClash (names : List String)
  | escaped (fault : Fault)

/-- The failure of data that are refused.  If the message cannot show the value at fault, that
is a fault of its own. -/
def InvalidInput.failure (cause : InvalidInput) : Failure :=
  if cause.value?.all Value.isShowable then .invalid cause else .escaped .longInteger

/-- The failure of a manifest that is refused, which shows its values likewise. -/
def ManifestFault.failure (source : String) (cause : ManifestFault) : Failure :=
  if cause.values.all Value.isShowable then .manifest source cause else .escaped .longInteger

namespace Failure

/-- The text that stands before a cause when its source is known. -/
def located (source : String) : String :=
  if source.isEmpty then "" else source ++ ": "

def message : Failure → String
  | config cause => cause.message
  | invalid cause => cause.message
  | manifest source cause => located source ++ cause.message
  | manifestFile cause => cause.message
  | noEntries source => located source ++ "清单中没有定义任何 handler 或 export"
  | condition fault => fault.message
  | files cause => cause.message
  | invoiceMissing entry id => entry ++ ": 外部包 " ++ id.text ++ " 的 invoice 未预取"
  | handlerMissing importing id handlerId available =>
    (match importing with
      | none => ""
      | some reference => "外部引用 " ++ reference ++ ": ")
      ++ "包 " ++ id.text ++ " 中没有 handler '" ++ handlerId ++ "'。可用: "
      ++ Text.quotedList available
  | notHandler importing id parcel =>
    (match importing with
      | none => ""
      | some reference => "解析外部引用 " ++ reference ++ " 的依赖失败: ")
      ++ "parcel " ++ parcel ++ " 不是包 " ++ id.text ++ " 中的 handler，无法计算依赖"
  | fetch cause => cause.message
  | nameClash names => "本地文件与外部依赖的 parcel 重名: " ++ String.intercalate ", " names
  | escaped fault => fault.message

/-- The stable code of a failure of the packaging; a fault of the layers below has
none. -/
def code? : Failure → Option String
  | config _ => some "CONFIG_ERROR"
  | invalid _ => some "VALIDATION_ERROR"
  | manifest _ _ | manifestFile _ => some "MANIFEST_ERROR"
  | noEntries _ => some "NO_ENTRIES"
  | condition _ => some "CONDITION_SYNTAX"
  | files _ => some "FILESYSTEM_ERROR"
  | invoiceMissing _ _ => some "EXTERNAL_INVOICE_NOT_FOUND"
  | handlerMissing _ _ _ _ => some "EXTERNAL_HANDLER_NOT_FOUND"
  | notHandler _ _ _ => some "EXTERNAL_DEPENDENCY_NOT_FOUND"
  | fetch _ => some "FETCH_ERROR"
  | nameClash _ => some "NAME_CLASH"
  | escaped _ => none

end Failure
end Consignment
