/-
  The table of Apple's symbols: `Symbols` of `src/daemon/apple/loader.hpp`, the names under which
  `src/daemon/apple/loader.cpp` looks them up, and the order in which it does.
-/
import Mathlib.Logic.Function.Basic

namespace WrapperPaas

namespace Runtime

/-- The fields of the source's `Symbols`. -/
inductive Symbol
  | vtable_RequestContextConfig
  | vtable_CredentialsResponse
  | vtable_ProtocolDialogResponse
  | vtable_HTTPMessage
  | resolv_set_nameservers_for_net
  | FootHillConfig_config
  | DeviceGUID_instance
  | DeviceGUID_configure
  | make_shared_RequestContext
  | RequestContextConfig_ctor
  | RCC_setBaseDirectoryPath
  | RCC_setClientIdentifier
  | RCC_setVersionIdentifier
  | RCC_setPlatformIdentifier
  | RCC_setProductVersion
  | RCC_setDeviceModel
  | RCC_setBuildVersion
  | RCC_setLocaleIdentifier
  | RCC_setLanguageIdentifier
  | RequestContextManager_configure
  | RequestContext_init
  | RequestContext_setFairPlayDirectoryPath
  | make_shared_AndroidPresentationInterface
  | API_setCredentialsHandler
  | API_setDialogHandler
  | API_handleCredentialsResponse
  | API_handleProtocolDialogResponse
  | RequestContext_setPresentationInterface
  | ProtocolDialog_title
  | ProtocolDialog_message
  | ProtocolDialog_buttons
  | ProtocolButton_title
  | ProtocolDialogResponse_ctor
  | ProtocolDialogResponse_setSelectedButton
  | CR_requiresHSA2VerificationCode
  | CR_title
  | CR_message
  | CredentialsResponse_ctor
  | CredentialsResponse_setUserName
  | CredentialsResponse_setPassword
  | CredentialsResponse_setResponseType
  | make_shared_AuthenticateFlow
  | AuthenticateFlow_run
  | AuthenticateFlow_response
  | AR_responseType
  | AR_customerMessage
  | AR_error
  | SEC_errorCode
  | SEC_what
  | DeviceGUID_guid
  | Data_bytes
  | HTTPMessage_ctor
  | HTTPMessage_setHeader
  | HTTPMessage_setBodyData
  | URLRequest_ctor
  | URLRequest_setRequestParameter
  | URLRequest_run
  | URLRequest_error
  | URLRequest_response
  | URLResponse_underlyingResponse
  | PurchaseRequest_ctor
  | PurchaseRequest_setProcessDialogActions
  | PurchaseRequest_setURLBagKey
  | PurchaseRequest_setBuyParameters
  | PurchaseRequest_run
  | PurchaseRequest_response
  | PurchaseResponse_error
  | PurchaseResponse_items
  | PurchaseItem_dictionary
  /-- may stay null -/
  | vector_PurchaseItem_dtor
  | URLRequest_setURLResponsePreprocessor
  | URLResponse_protocolDictionary
  | CFRetain
  | CFRelease
  | CFDataGetBytePtr
  | CFDataGetLength
  | CFPropertyListCreateData
  | CFStringCreateWithCString
  | CFArrayCreate
  | CFDictionaryCreate
  | kCFTypeArrayCallBacks
  | kCFTypeDictionaryKeyCallBacks
  | kCFTypeDictionaryValueCallBacks
  | CFGetTypeID
  | CFStringGetTypeID
  | CFNumberGetTypeID
  | CFBooleanGetTypeID
  | CFArrayGetTypeID
  | CFDictionaryGetTypeID
  | CFDataGetTypeID
  | CFDateGetTypeID
  | CFNullGetTypeID
  | CFStringGetCStringPtr
  | CFStringGetLength
  | CFStringGetCString
  | CFStringGetMaximumSizeForEncoding
  | CFNumberGetType
  | CFNumberGetValue
  | CFNumberIsFloatType
  | CFBooleanGetValue
  | CFArrayGetCount
  | CFArrayGetValueAtIndex
  | CFDictionaryGetCount
  | CFDictionaryGetKeysAndValues
  | CFDateGetAbsoluteTime
  | RequestContext_storeFrontIdentifier
  | SVPlaybackLeaseManager_ctor
  | SVPlaybackLeaseManager_refreshLeaseAutomatically
  | SVPlaybackLeaseManager_requestLease
  | SVFootHillSessionCtrl_instance
  | SVFootHillSessionCtrl_decryptContext
  | SVFootHillPContext_kdContext
  | fp_sample_decrypt
  | SVFootHillSessionCtrl_resetAllContexts
  | shared_ptr_SVFootHillPContext_dtor
  deriving DecidableEq, Repr

/-- An address. -/
abbrev Ptr := UInt64

def nullptr : Ptr := 0

/-- On bionic it is the null pointer. -/
def rtldDefault : Ptr := 0

abbrev Symbols := Symbol → Ptr

/-! ### Names -/

/-- The names of `namespace mangled`; the symbols of CoreFoundation are plain C. -/
def Symbol.name : Symbol → String
  | .vtable_RequestContextConfig =>
    "_ZTVNSt6__ndk120__shared_ptr_emplaceIN17storeservicescore20RequestContextConfigENS_9allocatorIS2_EEEE"
  | .vtable_CredentialsResponse =>
    "_ZTVNSt6__ndk120__shared_ptr_emplaceIN17storeservicescore19CredentialsResponseENS_9allocatorIS2_EEEE"
  | .vtable_ProtocolDialogResponse =>
    "_ZTVNSt6__ndk120__shared_ptr_emplaceIN17storeservicescore22ProtocolDialogResponseENS_9allocatorIS2_EEEE"
  | .vtable_HTTPMessage =>
    "_ZTVNSt6__ndk120__shared_ptr_emplaceIN13mediaplatform11HTTPMessageENS_9allocatorIS2_EEEE"
  | .resolv_set_nameservers_for_net =>
    "_resolv_set_nameservers_for_net"
  | .FootHillConfig_config =>
    "_ZN14FootHillConfig6configERKNSt6__ndk112basic_stringIcNS0_11char_traitsIcEENS0_9allocatorIcEEEE"
  | .DeviceGUID_instance =>
    "_ZN17storeservicescore10DeviceGUID8instanceEv"
  | .DeviceGUID_configure =>
    "_ZN17storeservicescore10DeviceGUID9configureERKNSt6__ndk112basic_stringIcNS1_11char_traitsIcEENS1_9allocatorIcEEEES9_RKjRKb"
  | .make_shared_RequestContext =>
    "_ZNSt6__ndk110shared_ptrIN17storeservicescore14RequestContextEE11make_sharedIJRNS_12basic_stringIcNS_11char_traitsIcEENS_9allocatorIcEEEEEEES3_DpOT_"
  | .RequestContextConfig_ctor =>
    "_ZN17storeservicescore20RequestContextConfigC2Ev"
  | .RCC_setBaseDirectoryPath =>
    "_ZN17storeservicescore20RequestContextConfig20setBaseDirectoryPathERKNSt6__ndk112basic_stringIcNS1_11char_traitsIcEENS1_9allocatorIcEEEE"
  | .RCC_setClientIdentifier =>
    "_ZN17storeservicescore20RequestContextConfig19setClientIdentifierERKNSt6__ndk112basic_stringIcNS1_11char_traitsIcEENS1_9allocatorIcEEEE"
  | .RCC_setVersionIdentifier =>
    "_ZN17storeservicescore20RequestContextConfig20setVersionIdentifierERKNSt6__ndk112basic_stringIcNS1_11char_traitsIcEENS1_9allocatorIcEEEE"
  | .RCC_setPlatformIdentifier =>
    "_ZN17storeservicescore20RequestContextConfig21setPlatformIdentifierERKNSt6__ndk112basic_stringIcNS1_11char_traitsIcEENS1_9allocatorIcEEEE"
  | .RCC_setProductVersion =>
    "_ZN17storeservicescore20RequestContextConfig17setProductVersionERKNSt6__ndk112basic_stringIcNS1_11char_traitsIcEENS1_9allocatorIcEEEE"
  | .RCC_setDeviceModel =>
    "_ZN17storeservicescore20RequestContextConfig14setDeviceModelERKNSt6__ndk112basic_stringIcNS1_11char_traitsIcEENS1_9allocatorIcEEEE"
  | .RCC_setBuildVersion =>
    "_ZN17storeservicescore20RequestContextConfig15setBuildVersionERKNSt6__ndk112basic_stringIcNS1_11char_traitsIcEENS1_9allocatorIcEEEE"
  | .RCC_setLocaleIdentifier =>
    "_ZN17storeservicescore20RequestContextConfig19setLocaleIdentifierERKNSt6__ndk112basic_stringIcNS1_11char_traitsIcEENS1_9allocatorIcEEEE"
  | .RCC_setLanguageIdentifier =>
    "_ZN17storeservicescore20RequestContextConfig21setLanguageIdentifierERKNSt6__ndk112basic_stringIcNS1_11char_traitsIcEENS1_9allocatorIcEEEE"
  | .RequestContextManager_configure =>
    "_ZN21RequestContextManager9configureERKNSt6__ndk110shared_ptrIN17storeservicescore14RequestContextEEE"
  | .RequestContext_init =>
    "_ZN17storeservicescore14RequestContext4initERKNSt6__ndk110shared_ptrINS_20RequestContextConfigEEE"
  | .RequestContext_setFairPlayDirectoryPath =>
    "_ZN17storeservicescore14RequestContext24setFairPlayDirectoryPathERKNSt6__ndk112basic_stringIcNS1_11char_traitsIcEENS1_9allocatorIcEEEE"
  | .make_shared_AndroidPresentationInterface =>
    "_ZNSt6__ndk110shared_ptrIN20androidstoreservices28AndroidPresentationInterfaceEE11make_sharedIJEEES3_DpOT_"
  | .API_setCredentialsHandler =>
    "_ZN20androidstoreservices28AndroidPresentationInterface21setCredentialsHandlerEPFvNSt6__ndk110shared_ptrIN17storeservicescore18CredentialsRequestEEENS2_INS_33AndroidCredentialsResponseHandlerEEEE"
  | .API_setDialogHandler =>
    "_ZN20androidstoreservices28AndroidPresentationInterface16setDialogHandlerEPFvlNSt6__ndk110shared_ptrIN17storeservicescore14ProtocolDialogEEENS2_INS_36AndroidProtocolDialogResponseHandlerEEEE"
  | .API_handleCredentialsResponse =>
    "_ZN20androidstoreservices28AndroidPresentationInterface25handleCredentialsResponseERKNSt6__ndk110shared_ptrIN17storeservicescore19CredentialsResponseEEE"
  | .API_handleProtocolDialogResponse =>
    "_ZN20androidstoreservices28AndroidPresentationInterface28handleProtocolDialogResponseERKlRKNSt6__ndk110shared_ptrIN17storeservicescore22ProtocolDialogResponseEEE"
  | .RequestContext_setPresentationInterface =>
    "_ZN17storeservicescore14RequestContext24setPresentationInterfaceERKNSt6__ndk110shared_ptrINS_21PresentationInterfaceEEE"
  | .ProtocolDialog_title =>
    "_ZNK17storeservicescore14ProtocolDialog5titleEv"
  | .ProtocolDialog_message =>
    "_ZNK17storeservicescore14ProtocolDialog7messageEv"
  | .ProtocolDialog_buttons =>
    "_ZNK17storeservicescore14ProtocolDialog7buttonsEv"
  | .ProtocolButton_title =>
    "_ZNK17storeservicescore14ProtocolButton5titleEv"
  | .ProtocolDialogResponse_ctor =>
    "_ZN17storeservicescore22ProtocolDialogResponseC1Ev"
  | .ProtocolDialogResponse_setSelectedButton =>
    "_ZN17storeservicescore22ProtocolDialogResponse17setSelectedButtonERKNSt6__ndk110shared_ptrINS_14ProtocolButtonEEE"
  | .CR_requiresHSA2VerificationCode =>
    "_ZNK17storeservicescore18CredentialsRequest28requiresHSA2VerificationCodeEv"
  | .CR_title =>
    "_ZNK17storeservicescore18CredentialsRequest5titleEv"
  | .CR_message =>
    "_ZNK17storeservicescore18CredentialsRequest7messageEv"
  | .CredentialsResponse_ctor =>
    "_ZN17storeservicescore19CredentialsResponseC1Ev"
  | .CredentialsResponse_setUserName =>
    "_ZN17storeservicescore19CredentialsResponse11setUserNameERKNSt6__ndk112basic_stringIcNS1_11char_traitsIcEENS1_9allocatorIcEEEE"
  | .CredentialsResponse_setPassword =>
    "_ZN17storeservicescore19CredentialsResponse11setPasswordERKNSt6__ndk112basic_stringIcNS1_11char_traitsIcEENS1_9allocatorIcEEEE"
  | .CredentialsResponse_setResponseType =>
    "_ZN17storeservicescore19CredentialsResponse15setResponseTypeENS0_12ResponseTypeE"
  | .make_shared_AuthenticateFlow =>
    "_ZNSt6__ndk110shared_ptrIN17storeservicescore16AuthenticateFlowEE11make_sharedIJRNS0_INS1_14RequestContextEEEEEES3_DpOT_"
  | .AuthenticateFlow_run =>
    "_ZN17storeservicescore16AuthenticateFlow3runEv"
  | .AuthenticateFlow_response =>
    "_ZNK17storeservicescore16AuthenticateFlow8responseEv"
  | .AR_responseType =>
    "_ZNK17storeservicescore20AuthenticateResponse12responseTypeEv"
  | .AR_customerMessage =>
    "_ZNK17storeservicescore20AuthenticateResponse15customerMessageEv"
  | .AR_error =>
    "_ZNK17storeservicescore20AuthenticateResponse5errorEv"
  | .SEC_errorCode =>
    "_ZNK17storeservicescore19StoreErrorCondition9errorCodeEv"
  | .SEC_what =>
    "_ZNK17storeservicescore19StoreErrorCondition4whatEv"
  | .DeviceGUID_guid =>
    "_ZN17storeservicescore10DeviceGUID4guidEv"
  | .Data_bytes =>
    "_ZNK13mediaplatform4Data5bytesEv"
  | .HTTPMessage_ctor =>
    "_ZN13mediaplatform11HTTPMessageC2ENSt6__ndk112basic_stringIcNS1_11char_traitsIcEENS1_9allocatorIcEEEES7_"
  | .HTTPMessage_setHeader =>
    "_ZN13mediaplatform11HTTPMessage9setHeaderERKNSt6__ndk112basic_stringIcNS1_11char_traitsIcEENS1_9allocatorIcEEEES9_"
  | .HTTPMessage_setBodyData =>
    "_ZN13mediaplatform11HTTPMessage11setBodyDataEPcm"
  | .URLRequest_ctor =>
    "_ZN17storeservicescore10URLRequestC2ERKNSt6__ndk110shared_ptrIN13mediaplatform11HTTPMessageEEERKNS2_INS_14RequestContextEEE"
  | .URLRequest_setRequestParameter =>
    "_ZN17storeservicescore10URLRequest19setRequestParameterERKNSt6__ndk112basic_stringIcNS1_11char_traitsIcEENS1_9allocatorIcEEEES9_"
  | .URLRequest_run =>
    "_ZN17storeservicescore10URLRequest3runEv"
  | .URLRequest_error =>
    "_ZNK17storeservicescore10URLRequest5errorEv"
  | .URLRequest_response =>
    "_ZNK17storeservicescore10URLRequest8responseEv"
  | .URLResponse_underlyingResponse =>
    "_ZNK17storeservicescore11URLResponse18underlyingResponseEv"
  | .PurchaseRequest_ctor =>
    "_ZN17storeservicescore15PurchaseRequestC2ERKNSt6__ndk110shared_ptrINS_14RequestContextEEE"
  | .PurchaseRequest_setProcessDialogActions =>
    "_ZN17storeservicescore15PurchaseRequest23setProcessDialogActionsEb"
  | .PurchaseRequest_setURLBagKey =>
    "_ZN17storeservicescore15PurchaseRequest12setURLBagKeyERKNSt6__ndk112basic_stringIcNS1_11char_traitsIcEENS1_9allocatorIcEEEE"
  | .PurchaseRequest_setBuyParameters =>
    "_ZN17storeservicescore15PurchaseRequest16setBuyParametersERKNSt6__ndk112basic_stringIcNS1_11char_traitsIcEENS1_9allocatorIcEEEE"
  | .PurchaseRequest_run =>
    "_ZN17storeservicescore15PurchaseRequest3runEv"
  | .PurchaseRequest_response =>
    "_ZNK17storeservicescore15PurchaseRequest8responseEv"
  | .PurchaseResponse_error =>
    "_ZN17storeservicescore16PurchaseResponse5errorEv"
  | .PurchaseResponse_items =>
    "_ZNK17storeservicescore16PurchaseResponse5itemsEv"
  | .PurchaseItem_dictionary =>
    "_ZNK17storeservicescore12PurchaseItem10dictionaryEv"
  | .vector_PurchaseItem_dtor =>
    "_ZNSt6__ndk16vectorINS_10shared_ptrIN17storeservicescore12PurchaseItemEEENS_9allocatorIS4_EEED2Ev"
  | .URLRequest_setURLResponsePreprocessor =>
    "_ZN17storeservicescore10URLRequest26setURLResponsePreprocessorERKNSt6__ndk18functionIFvRKNS1_10shared_ptrINS_11URLResponseEEEEEE"
  | .URLResponse_protocolDictionary =>
    "_ZN17storeservicescore11URLResponse18protocolDictionaryEv"
  | .CFRetain => "CFRetain"
  | .CFRelease => "CFRelease"
  | .CFDataGetBytePtr => "CFDataGetBytePtr"
  | .CFDataGetLength => "CFDataGetLength"
  | .CFPropertyListCreateData => "CFPropertyListCreateData"
  | .CFStringCreateWithCString => "CFStringCreateWithCString"
  | .CFArrayCreate => "CFArrayCreate"
  | .CFDictionaryCreate => "CFDictionaryCreate"
  | .kCFTypeArrayCallBacks => "kCFTypeArrayCallBacks"
  | .kCFTypeDictionaryKeyCallBacks => "kCFTypeDictionaryKeyCallBacks"
  | .kCFTypeDictionaryValueCallBacks => "kCFTypeDictionaryValueCallBacks"
  | .CFGetTypeID => "CFGetTypeID"
  | .CFStringGetTypeID => "CFStringGetTypeID"
  | .CFNumberGetTypeID => "CFNumberGetTypeID"
  | .CFBooleanGetTypeID => "CFBooleanGetTypeID"
  | .CFArrayGetTypeID => "CFArrayGetTypeID"
  | .CFDictionaryGetTypeID => "CFDictionaryGetTypeID"
  | .CFDataGetTypeID => "CFDataGetTypeID"
  | .CFDateGetTypeID => "CFDateGetTypeID"
  | .CFNullGetTypeID => "CFNullGetTypeID"
  | .CFStringGetCStringPtr => "CFStringGetCStringPtr"
  | .CFStringGetLength => "CFStringGetLength"
  | .CFStringGetCString => "CFStringGetCString"
  | .CFStringGetMaximumSizeForEncoding => "CFStringGetMaximumSizeForEncoding"
  | .CFNumberGetType => "CFNumberGetType"
  | .CFNumberGetValue => "CFNumberGetValue"
  | .CFNumberIsFloatType => "CFNumberIsFloatType"
  | .CFBooleanGetValue => "CFBooleanGetValue"
  | .CFArrayGetCount => "CFArrayGetCount"
  | .CFArrayGetValueAtIndex => "CFArrayGetValueAtIndex"
  | .CFDictionaryGetCount => "CFDictionaryGetCount"
  | .CFDictionaryGetKeysAndValues => "CFDictionaryGetKeysAndValues"
  | .CFDateGetAbsoluteTime => "CFDateGetAbsoluteTime"
  | .RequestContext_storeFrontIdentifier =>
    "_ZNK17storeservicescore14RequestContext20storeFrontIdentifierERKNSt6__ndk110shared_ptrINS_6URLBagEEE"
  | .SVPlaybackLeaseManager_ctor =>
    "_ZN22SVPlaybackLeaseManagerC2ERKNSt6__ndk18functionIFvRKiEEERKNS1_IFvRKNS0_10shared_ptrIN17storeservicescore19StoreErrorConditionEEEEEE"
  | .SVPlaybackLeaseManager_refreshLeaseAutomatically =>
    "_ZN22SVPlaybackLeaseManager25refreshLeaseAutomaticallyERKb"
  | .SVPlaybackLeaseManager_requestLease =>
    "_ZN22SVPlaybackLeaseManager12requestLeaseERKb"
  | .SVFootHillSessionCtrl_instance =>
    "_ZN21SVFootHillSessionCtrl8instanceEv"
  | .SVFootHillSessionCtrl_decryptContext =>
    "_ZN21SVFootHillSessionCtrl14decryptContextERKNSt6__ndk112basic_stringIcNS0_11char_traitsIcEENS0_9allocatorIcEEEERKN11SVDecryptor15SVDecryptorTypeERKb"
  | .SVFootHillPContext_kdContext =>
    "_ZNK18SVFootHillPContext9kdContextEv"
  | .fp_sample_decrypt =>
    "NfcRKVnxuKZy04KWbdFu71Ou"
  | .SVFootHillSessionCtrl_resetAllContexts =>
    "_ZN21SVFootHillSessionCtrl16resetAllContextsEv"
  | .shared_ptr_SVFootHillPContext_dtor =>
    "_ZNSt6__ndk110shared_ptrI18SVFootHillPContextED2Ev"

def svFootHillSessionCtrlGetPersistentKey8str : String :=
  "_ZN21SVFootHillSessionCtrl16getPersistentKeyERKNSt6__ndk112basic_stringIcNS0_11char_traitsIcEENS0_9allocatorIcEEEES8_S8_S8_S8_S8_S8_S8_"

def svFootHillSessionCtrlGetPersistentKey7str : String :=
  "_ZN21SVFootHillSessionCtrl16getPersistentKeyERKNSt6__ndk112basic_stringIcNS0_11char_traitsIcEENS0_9allocatorIcEEEES8_S8_S8_S8_S8_S8_"

/-! ### The order of `Loader::open` -/

def vtables : List Symbol :=
  [
    .vtable_RequestContextConfig, .vtable_CredentialsResponse, .vtable_ProtocolDialogResponse,
    .vtable_HTTPMessage
  ]

/-- The lines `RESOLVE`. -/
def mangledSymbols : List Symbol :=
  [
    .FootHillConfig_config, .DeviceGUID_instance, .DeviceGUID_configure,
    .make_shared_RequestContext, .RequestContextConfig_ctor, .RCC_setBaseDirectoryPath,
    .RCC_setClientIdentifier, .RCC_setVersionIdentifier, .RCC_setPlatformIdentifier,
    .RCC_setProductVersion, .RCC_setDeviceModel, .RCC_setBuildVersion, .RCC_setLocaleIdentifier,
    .RCC_setLanguageIdentifier, .RequestContextManager_configure, .RequestContext_init,
    .RequestContext_setFairPlayDirectoryPath, .make_shared_AndroidPresentationInterface,
    .API_setCredentialsHandler, .API_setDialogHandler, .API_handleCredentialsResponse,
    .API_handleProtocolDialogResponse, .RequestContext_setPresentationInterface,
    .ProtocolDialog_title, .ProtocolDialog_message, .ProtocolDialog_buttons, .ProtocolButton_title,
    .ProtocolDialogResponse_ctor, .ProtocolDialogResponse_setSelectedButton,
    .CR_requiresHSA2VerificationCode, .CR_title, .CR_message, .CredentialsResponse_ctor,
    .CredentialsResponse_setUserName, .CredentialsResponse_setPassword,
    .CredentialsResponse_setResponseType, .make_shared_AuthenticateFlow, .AuthenticateFlow_run,
    .AuthenticateFlow_response, .AR_responseType, .AR_customerMessage, .AR_error, .SEC_errorCode,
    .SEC_what, .DeviceGUID_guid, .Data_bytes, .HTTPMessage_ctor, .HTTPMessage_setHeader,
    .HTTPMessage_setBodyData, .URLRequest_ctor, .URLRequest_setRequestParameter, .URLRequest_run,
    .URLRequest_error, .URLRequest_response, .URLResponse_underlyingResponse,
    .PurchaseRequest_ctor, .PurchaseRequest_setProcessDialogActions, .PurchaseRequest_setURLBagKey,
    .PurchaseRequest_setBuyParameters, .PurchaseRequest_run, .PurchaseRequest_response,
    .PurchaseResponse_error, .PurchaseResponse_items, .PurchaseItem_dictionary,
    .URLRequest_setURLResponsePreprocessor, .URLResponse_protocolDictionary,
    .RequestContext_storeFrontIdentifier
  ]

/-- The lines `RESOLVE_CF` and those before them. -/
def coreFoundationSymbols : List Symbol :=
  [
    .CFRetain, .CFRelease, .CFDataGetBytePtr, .CFDataGetLength, .CFPropertyListCreateData,
    .CFStringCreateWithCString, .CFArrayCreate, .CFDictionaryCreate, .kCFTypeArrayCallBacks,
    .kCFTypeDictionaryKeyCallBacks, .kCFTypeDictionaryValueCallBacks, .CFGetTypeID,
    .CFStringGetTypeID, .CFNumberGetTypeID, .CFBooleanGetTypeID, .CFArrayGetTypeID,
    .CFDictionaryGetTypeID, .CFDataGetTypeID, .CFDateGetTypeID, .CFNullGetTypeID,
    .CFStringGetCStringPtr, .CFStringGetLength, .CFStringGetCString,
    .CFStringGetMaximumSizeForEncoding, .CFNumberGetType, .CFNumberGetValue, .CFNumberIsFloatType,
    .CFBooleanGetValue, .CFArrayGetCount, .CFArrayGetValueAtIndex, .CFDictionaryGetCount,
    .CFDictionaryGetKeysAndValues, .CFDateGetAbsoluteTime
  ]

/-- The lines `RESOLVE_FPS` before `getPersistentKey`. -/
def leaseSymbols : List Symbol :=
  [
    .SVPlaybackLeaseManager_ctor, .SVPlaybackLeaseManager_refreshLeaseAutomatically,
    .SVPlaybackLeaseManager_requestLease, .SVFootHillSessionCtrl_instance
  ]

/-- The lines `RESOLVE_FPS` behind it. -/
def footHillSymbols : List Symbol :=
  [
    .SVFootHillSessionCtrl_decryptContext, .SVFootHillPContext_kdContext, .fp_sample_decrypt,
    .SVFootHillSessionCtrl_resetAllContexts, .shared_ptr_SVFootHillPContext_dtor
  ]

def coreSymbols : List Symbol :=
  .resolv_set_nameservers_for_net :: (vtables ++ (mangledSymbols ++ coreFoundationSymbols))

def fpsSymbols : List Symbol := leaseSymbols ++ footHillSymbols

/-- Every other symbol is looked up as a core symbol. -/
theorem mem_coreSymbols (f : Symbol) :
    f ∈ coreSymbols ↔ f ∉ fpsSymbols ∧ f ≠ .vector_PurchaseItem_dtor := by
  cases f <;> decide

end Runtime

end WrapperPaas
