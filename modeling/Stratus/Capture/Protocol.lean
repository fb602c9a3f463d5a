import Mathlib.Data.List.Defs

/-! The Wayland protocols the proxy knows, as `libs/wayland/protocols` declares them,
and the message tables that the scanner generates from these files. -/
namespace Stratus.Capture.Proxy

/-- The interfaces of `proxy_protocols`, protocol by protocol. -/
inductive Interface where
  | zwpLinuxDmabufV1 | zwpLinuxBufferParamsV1 | zwpLinuxDmabufFeedbackV1
  | zwpPointerConstraintsV1 | zwpLockedPointerV1 | zwpConfinedPointerV1
  | wpPresentation | wpPresentationFeedback
  | zwpRelativePointerManagerV1 | zwpRelativePointerV1
  | zwpTabletManagerV2 | zwpTabletSeatV2 | zwpTabletToolV2 | zwpTabletV2 | zwpTabletPadRingV2
  | zwpTabletPadStripV2 | zwpTabletPadGroupV2 | zwpTabletPadV2 | zwpTabletPadDialV2
  | wpViewporter | wpViewport
  | wlDisplay | wlRegistry | wlCallback | wlCompositor | wlShmPool | wlShm | wlBuffer
  | wlDataOffer | wlDataSource | wlDataDevice | wlDataDeviceManager | wlShell | wlShellSurface
  | wlSurface | wlSeat | wlPointer | wlKeyboard | wlTouch | wlOutput | wlRegion | wlSubcompositor
  | wlSubsurface | wlFixes
  | xdgWmBase | xdgPositioner | xdgSurface | xdgToplevel | xdgPopup
deriving DecidableEq

/-- An `arg` element.  Only the data the proxy's parser looks at is kept. -/
inductive ArgDecl where
  | int
  | uint
  | fixed
  | string (nullable : Bool)
  | object (interface : Option Interface) (nullable : Bool)
  | newId (interface : Option Interface)
  | array
  | fd
deriving DecidableEq

/-- A `request` or `event` element. -/
structure Message where
  name : String
  args : List ArgDecl
deriving DecidableEq

namespace ArgDecl

/-- The interface that a protocol declares for an argument. -/
def interface : ArgDecl → Option Interface
  | .object i _ => i
  | .newId i => i
  | _ => none

def isNewId : ArgDecl → Bool
  | .newId _ => true
  | _ => false

end ArgDecl

namespace Message

/-- The signature string of a `struct wl_message`: a `new_id` without an interface
becomes `sun`. -/
def signature (m : Message) : List ArgDecl :=
  m.args.flatMap fun arg =>
    match arg with
    | .newId none => [.string false, .uint, .newId none]
    | arg => [arg]

/-- The `types` of a `struct wl_message`, one entry for each `arg` element. -/
def types (m : Message) : List (Option Interface) := m.args.map ArgDecl.interface

end Message

namespace Interface

def name : Interface → String
  | .zwpLinuxDmabufV1 => "zwp_linux_dmabuf_v1"
  | .zwpLinuxBufferParamsV1 => "zwp_linux_buffer_params_v1"
  | .zwpLinuxDmabufFeedbackV1 => "zwp_linux_dmabuf_feedback_v1"
  | .zwpPointerConstraintsV1 => "zwp_pointer_constraints_v1"
  | .zwpLockedPointerV1 => "zwp_locked_pointer_v1"
  | .zwpConfinedPointerV1 => "zwp_confined_pointer_v1"
  | .wpPresentation => "wp_presentation"
  | .wpPresentationFeedback => "wp_presentation_feedback"
  | .zwpRelativePointerManagerV1 => "zwp_relative_pointer_manager_v1"
  | .zwpRelativePointerV1 => "zwp_relative_pointer_v1"
  | .zwpTabletManagerV2 => "zwp_tablet_manager_v2"
  | .zwpTabletSeatV2 => "zwp_tablet_seat_v2"
  | .zwpTabletToolV2 => "zwp_tablet_tool_v2"
  | .zwpTabletV2 => "zwp_tablet_v2"
  | .zwpTabletPadRingV2 => "zwp_tablet_pad_ring_v2"
  | .zwpTabletPadStripV2 => "zwp_tablet_pad_strip_v2"
  | .zwpTabletPadGroupV2 => "zwp_tablet_pad_group_v2"
  | .zwpTabletPadV2 => "zwp_tablet_pad_v2"
  | .zwpTabletPadDialV2 => "zwp_tablet_pad_dial_v2"
  | .wpViewporter => "wp_viewporter"
  | .wpViewport => "wp_viewport"
  | .wlDisplay => "wl_display"
  | .wlRegistry => "wl_registry"
  | .wlCallback => "wl_callback"
  | .wlCompositor => "wl_compositor"
  | .wlShmPool => "wl_shm_pool"
  | .wlShm => "wl_shm"
  | .wlBuffer => "wl_buffer"
  | .wlDataOffer => "wl_data_offer"
  | .wlDataSource => "wl_data_source"
  | .wlDataDevice => "wl_data_device"
  | .wlDataDeviceManager => "wl_data_device_manager"
  | .wlShell => "wl_shell"
  | .wlShellSurface => "wl_shell_surface"
  | .wlSurface => "wl_surface"
  | .wlSeat => "wl_seat"
  | .wlPointer => "wl_pointer"
  | .wlKeyboard => "wl_keyboard"
  | .wlTouch => "wl_touch"
  | .wlOutput => "wl_output"
  | .wlRegion => "wl_region"
  | .wlSubcompositor => "wl_subcompositor"
  | .wlSubsurface => "wl_subsurface"
  | .wlFixes => "wl_fixes"
  | .xdgWmBase => "xdg_wm_base"
  | .xdgPositioner => "xdg_positioner"
  | .xdgSurface => "xdg_surface"
  | .xdgToplevel => "xdg_toplevel"
  | .xdgPopup => "xdg_popup"

def methods : Interface → List Message
  | .zwpLinuxDmabufV1 =>
      [⟨"destroy", []⟩, ⟨"create_params", [.newId (some .zwpLinuxBufferParamsV1)]⟩,
        ⟨"get_default_feedback", [.newId (some .zwpLinuxDmabufFeedbackV1)]⟩,
        ⟨"get_surface_feedback", [.newId (some .zwpLinuxDmabufFeedbackV1),
          .object (some .wlSurface) false]⟩]
  | .zwpLinuxBufferParamsV1 =>
      [⟨"destroy", []⟩, ⟨"add", [.fd, .uint, .uint, .uint, .uint, .uint]⟩,
        ⟨"create", [.int, .int, .uint, .uint]⟩,
        ⟨"create_immed", [.newId (some .wlBuffer), .int, .int, .uint, .uint]⟩]
  | .zwpLinuxDmabufFeedbackV1 =>
      [⟨"destroy", []⟩]
  | .zwpPointerConstraintsV1 =>
      [⟨"destroy", []⟩,
        ⟨"lock_pointer", [.newId (some .zwpLockedPointerV1), .object (some .wlSurface) false,
          .object (some .wlPointer) false, .object (some .wlRegion) true, .uint]⟩,
        ⟨"confine_pointer", [.newId (some .zwpConfinedPointerV1), .object (some .wlSurface) false,
          .object (some .wlPointer) false, .object (some .wlRegion) true, .uint]⟩]
  | .zwpLockedPointerV1 =>
      [⟨"destroy", []⟩, ⟨"set_cursor_position_hint", [.fixed, .fixed]⟩,
        ⟨"set_region", [.object (some .wlRegion) true]⟩]
  | .zwpConfinedPointerV1 =>
      [⟨"destroy", []⟩, ⟨"set_region", [.object (some .wlRegion) true]⟩]
  | .wpPresentation =>
      [⟨"destroy", []⟩,
        ⟨"feedback", [.object (some .wlSurface) false, .newId (some .wpPresentationFeedback)]⟩]
  | .wpPresentationFeedback => []
  | .zwpRelativePointerManagerV1 =>
      [⟨"destroy", []⟩,
        ⟨"get_relative_pointer", [.newId (some .zwpRelativePointerV1),
          .object (some .wlPointer) false]⟩]
  | .zwpRelativePointerV1 =>
      [⟨"destroy", []⟩]
  | .zwpTabletManagerV2 =>
      [⟨"get_tablet_seat", [.newId (some .zwpTabletSeatV2), .object (some .wlSeat) false]⟩,
        ⟨"destroy", []⟩]
  | .zwpTabletSeatV2 =>
      [⟨"destroy", []⟩]
  | .zwpTabletToolV2 =>
      [⟨"set_cursor", [.uint, .object (some .wlSurface) true, .int, .int]⟩, ⟨"destroy", []⟩]
  | .zwpTabletV2 =>
      [⟨"destroy", []⟩]
  | .zwpTabletPadRingV2 =>
      [⟨"set_feedback", [.string false, .uint]⟩, ⟨"destroy", []⟩]
  | .zwpTabletPadStripV2 =>
      [⟨"set_feedback", [.string false, .uint]⟩, ⟨"destroy", []⟩]
  | .zwpTabletPadGroupV2 =>
      [⟨"destroy", []⟩]
  | .zwpTabletPadV2 =>
      [⟨"set_feedback", [.uint, .string false, .uint]⟩, ⟨"destroy", []⟩]
  | .zwpTabletPadDialV2 =>
      [⟨"set_feedback", [.string false, .uint]⟩, ⟨"destroy", []⟩]
  | .wpViewporter =>
      [⟨"destroy", []⟩,
        ⟨"get_viewport", [.newId (some .wpViewport), .object (some .wlSurface) false]⟩]
  | .wpViewport =>
      [⟨"destroy", []⟩, ⟨"set_source", [.fixed, .fixed, .fixed, .fixed]⟩,
        ⟨"set_destination", [.int, .int]⟩]
  | .wlDisplay =>
      [⟨"sync", [.newId (some .wlCallback)]⟩, ⟨"get_registry", [.newId (some .wlRegistry)]⟩]
  | .wlRegistry =>
      [⟨"bind", [.uint, .newId none]⟩]
  | .wlCallback => []
  | .wlCompositor =>
      [⟨"create_surface", [.newId (some .wlSurface)]⟩,
        ⟨"create_region", [.newId (some .wlRegion)]⟩]
  | .wlShmPool =>
      [⟨"create_buffer", [.newId (some .wlBuffer), .int, .int, .int, .int, .uint]⟩,
        ⟨"destroy", []⟩, ⟨"resize", [.int]⟩]
  | .wlShm =>
      [⟨"create_pool", [.newId (some .wlShmPool), .fd, .int]⟩, ⟨"release", []⟩]
  | .wlBuffer =>
      [⟨"destroy", []⟩]
  | .wlDataOffer =>
      [⟨"accept", [.uint, .string true]⟩, ⟨"receive", [.string false, .fd]⟩, ⟨"destroy", []⟩,
        ⟨"finish", []⟩, ⟨"set_actions", [.uint, .uint]⟩]
  | .wlDataSource =>
      [⟨"offer", [.string false]⟩, ⟨"destroy", []⟩, ⟨"set_actions", [.uint]⟩]
  | .wlDataDevice =>
      [⟨"start_drag", [.object (some .wlDataSource) true, .object (some .wlSurface) false,
          .object (some .wlSurface) true, .uint]⟩,
        ⟨"set_selection", [.object (some .wlDataSource) true, .uint]⟩, ⟨"release", []⟩]
  | .wlDataDeviceManager =>
      [⟨"create_data_source", [.newId (some .wlDataSource)]⟩,
        ⟨"get_data_device", [.newId (some .wlDataDevice), .object (some .wlSeat) false]⟩]
  | .wlShell =>
      [⟨"get_shell_surface", [.newId (some .wlShellSurface), .object (some .wlSurface) false]⟩]
  | .wlShellSurface =>
      [⟨"pong", [.uint]⟩, ⟨"move", [.object (some .wlSeat) false, .uint]⟩,
        ⟨"resize", [.object (some .wlSeat) false, .uint, .uint]⟩, ⟨"set_toplevel", []⟩,
        ⟨"set_transient", [.object (some .wlSurface) false, .int, .int, .uint]⟩,
        ⟨"set_fullscreen", [.uint, .uint, .object (some .wlOutput) true]⟩,
        ⟨"set_popup", [.object (some .wlSeat) false, .uint, .object (some .wlSurface) false, .int,
          .int, .uint]⟩,
        ⟨"set_maximized", [.object (some .wlOutput) true]⟩, ⟨"set_title", [.string false]⟩,
        ⟨"set_class", [.string false]⟩]
  | .wlSurface =>
      [⟨"destroy", []⟩, ⟨"attach", [.object (some .wlBuffer) true, .int, .int]⟩,
        ⟨"damage", [.int, .int, .int, .int]⟩, ⟨"frame", [.newId (some .wlCallback)]⟩,
        ⟨"set_opaque_region", [.object (some .wlRegion) true]⟩,
        ⟨"set_input_region", [.object (some .wlRegion) true]⟩, ⟨"commit", []⟩,
        ⟨"set_buffer_transform", [.int]⟩, ⟨"set_buffer_scale", [.int]⟩,
        ⟨"damage_buffer", [.int, .int, .int, .int]⟩, ⟨"offset", [.int, .int]⟩]
  | .wlSeat =>
      [⟨"get_pointer", [.newId (some .wlPointer)]⟩, ⟨"get_keyboard", [.newId (some .wlKeyboard)]⟩,
        ⟨"get_touch", [.newId (some .wlTouch)]⟩, ⟨"release", []⟩]
  | .wlPointer =>
      [⟨"set_cursor", [.uint, .object (some .wlSurface) true, .int, .int]⟩, ⟨"release", []⟩]
  | .wlKeyboard =>
      [⟨"release", []⟩]
  | .wlTouch =>
      [⟨"release", []⟩]
  | .wlOutput =>
      [⟨"release", []⟩]
  | .wlRegion =>
      [⟨"destroy", []⟩, ⟨"add", [.int, .int, .int, .int]⟩, ⟨"subtract", [.int, .int, .int, .int]⟩]
  | .wlSubcompositor =>
      [⟨"destroy", []⟩,
        ⟨"get_subsurface", [.newId (some .wlSubsurface), .object (some .wlSurface) false,
          .object (some .wlSurface) false]⟩]
  | .wlSubsurface =>
      [⟨"destroy", []⟩, ⟨"set_position", [.int, .int]⟩,
        ⟨"place_above", [.object (some .wlSurface) false]⟩,
        ⟨"place_below", [.object (some .wlSurface) false]⟩, ⟨"set_sync", []⟩, ⟨"set_desync", []⟩]
  | .wlFixes =>
      [⟨"destroy", []⟩, ⟨"destroy_registry", [.object (some .wlRegistry) false]⟩]
  | .xdgWmBase =>
      [⟨"destroy", []⟩, ⟨"create_positioner", [.newId (some .xdgPositioner)]⟩,
        ⟨"get_xdg_surface", [.newId (some .xdgSurface), .object (some .wlSurface) false]⟩,
        ⟨"pong", [.uint]⟩]
  | .xdgPositioner =>
      [⟨"destroy", []⟩, ⟨"set_size", [.int, .int]⟩, ⟨"set_anchor_rect", [.int, .int, .int, .int]⟩,
        ⟨"set_anchor", [.uint]⟩, ⟨"set_gravity", [.uint]⟩, ⟨"set_constraint_adjustment", [.uint]⟩,
        ⟨"set_offset", [.int, .int]⟩, ⟨"set_reactive", []⟩, ⟨"set_parent_size", [.int, .int]⟩,
        ⟨"set_parent_configure", [.uint]⟩]
  | .xdgSurface =>
      [⟨"destroy", []⟩, ⟨"get_toplevel", [.newId (some .xdgToplevel)]⟩,
        ⟨"get_popup", [.newId (some .xdgPopup), .object (some .xdgSurface) true,
          .object (some .xdgPositioner) false]⟩,
        ⟨"set_window_geometry", [.int, .int, .int, .int]⟩, ⟨"ack_configure", [.uint]⟩]
  | .xdgToplevel =>
      [⟨"destroy", []⟩, ⟨"set_parent", [.object (some .xdgToplevel) true]⟩,
        ⟨"set_title", [.string false]⟩, ⟨"set_app_id", [.string false]⟩,
        ⟨"show_window_menu", [.object (some .wlSeat) false, .uint, .int, .int]⟩,
        ⟨"move", [.object (some .wlSeat) false, .uint]⟩,
        ⟨"resize", [.object (some .wlSeat) false, .uint, .uint]⟩, ⟨"set_max_size", [.int, .int]⟩,
        ⟨"set_min_size", [.int, .int]⟩, ⟨"set_maximized", []⟩, ⟨"unset_maximized", []⟩,
        ⟨"set_fullscreen", [.object (some .wlOutput) true]⟩, ⟨"unset_fullscreen", []⟩,
        ⟨"set_minimized", []⟩]
  | .xdgPopup =>
      [⟨"destroy", []⟩, ⟨"grab", [.object (some .wlSeat) false, .uint]⟩,
        ⟨"reposition", [.object (some .xdgPositioner) false, .uint]⟩]

def events : Interface → List Message
  | .zwpLinuxDmabufV1 =>
      [⟨"format", [.uint]⟩, ⟨"modifier", [.uint, .uint, .uint]⟩]
  | .zwpLinuxBufferParamsV1 =>
      [⟨"created", [.newId (some .wlBuffer)]⟩, ⟨"failed", []⟩]
  | .zwpLinuxDmabufFeedbackV1 =>
      [⟨"done", []⟩, ⟨"format_table", [.fd, .uint]⟩, ⟨"main_device", [.array]⟩,
        ⟨"tranche_done", []⟩, ⟨"tranche_target_device", [.array]⟩, ⟨"tranche_formats", [.array]⟩,
        ⟨"tranche_flags", [.uint]⟩]
  | .zwpPointerConstraintsV1 => []
  | .zwpLockedPointerV1 =>
      [⟨"locked", []⟩, ⟨"unlocked", []⟩]
  | .zwpConfinedPointerV1 =>
      [⟨"confined", []⟩, ⟨"unconfined", []⟩]
  | .wpPresentation =>
      [⟨"clock_id", [.uint]⟩]
  | .wpPresentationFeedback =>
      [⟨"sync_output", [.object (some .wlOutput) false]⟩,
        ⟨"presented", [.uint, .uint, .uint, .uint, .uint, .uint, .uint]⟩, ⟨"discarded", []⟩]
  | .zwpRelativePointerManagerV1 => []
  | .zwpRelativePointerV1 =>
      [⟨"relative_motion", [.uint, .uint, .fixed, .fixed, .fixed, .fixed]⟩]
  | .zwpTabletManagerV2 => []
  | .zwpTabletSeatV2 =>
      [⟨"tablet_added", [.newId (some .zwpTabletV2)]⟩,
        ⟨"tool_added", [.newId (some .zwpTabletToolV2)]⟩,
        ⟨"pad_added", [.newId (some .zwpTabletPadV2)]⟩]
  | .zwpTabletToolV2 =>
      [⟨"type", [.uint]⟩, ⟨"hardware_serial", [.uint, .uint]⟩,
        ⟨"hardware_id_wacom", [.uint, .uint]⟩, ⟨"capability", [.uint]⟩, ⟨"done", []⟩,
        ⟨"removed", []⟩,
        ⟨"proximity_in", [.uint, .object (some .zwpTabletV2) false,
          .object (some .wlSurface) false]⟩,
        ⟨"proximity_out", []⟩, ⟨"down", [.uint]⟩, ⟨"up", []⟩, ⟨"motion", [.fixed, .fixed]⟩,
        ⟨"pressure", [.uint]⟩, ⟨"distance", [.uint]⟩, ⟨"tilt", [.fixed, .fixed]⟩,
        ⟨"rotation", [.fixed]⟩, ⟨"slider", [.int]⟩, ⟨"wheel", [.fixed, .int]⟩,
        ⟨"button", [.uint, .uint, .uint]⟩, ⟨"frame", [.uint]⟩]
  | .zwpTabletV2 =>
      [⟨"name", [.string false]⟩, ⟨"id", [.uint, .uint]⟩, ⟨"path", [.string false]⟩, ⟨"done", []⟩,
        ⟨"removed", []⟩, ⟨"bustype", [.uint]⟩]
  | .zwpTabletPadRingV2 =>
      [⟨"source", [.uint]⟩, ⟨"angle", [.fixed]⟩, ⟨"stop", []⟩, ⟨"frame", [.uint]⟩]
  | .zwpTabletPadStripV2 =>
      [⟨"source", [.uint]⟩, ⟨"position", [.uint]⟩, ⟨"stop", []⟩, ⟨"frame", [.uint]⟩]
  | .zwpTabletPadGroupV2 =>
      [⟨"buttons", [.array]⟩, ⟨"ring", [.newId (some .zwpTabletPadRingV2)]⟩,
        ⟨"strip", [.newId (some .zwpTabletPadStripV2)]⟩, ⟨"modes", [.uint]⟩, ⟨"done", []⟩,
        ⟨"mode_switch", [.uint, .uint, .uint]⟩, ⟨"dial", [.newId (some .zwpTabletPadDialV2)]⟩]
  | .zwpTabletPadV2 =>
      [⟨"group", [.newId (some .zwpTabletPadGroupV2)]⟩, ⟨"path", [.string false]⟩,
        ⟨"buttons", [.uint]⟩, ⟨"done", []⟩, ⟨"button", [.uint, .uint, .uint]⟩,
        ⟨"enter", [.uint, .object (some .zwpTabletV2) false, .object (some .wlSurface) false]⟩,
        ⟨"leave", [.uint, .object (some .wlSurface) false]⟩, ⟨"removed", []⟩]
  | .zwpTabletPadDialV2 =>
      [⟨"delta", [.int]⟩, ⟨"frame", [.uint]⟩]
  | .wpViewporter => []
  | .wpViewport => []
  | .wlDisplay =>
      [⟨"error", [.object none false, .uint, .string false]⟩, ⟨"delete_id", [.uint]⟩]
  | .wlRegistry =>
      [⟨"global", [.uint, .string false, .uint]⟩, ⟨"global_remove", [.uint]⟩]
  | .wlCallback =>
      [⟨"done", [.uint]⟩]
  | .wlCompositor => []
  | .wlShmPool => []
  | .wlShm =>
      [⟨"format", [.uint]⟩]
  | .wlBuffer =>
      [⟨"release", []⟩]
  | .wlDataOffer =>
      [⟨"offer", [.string false]⟩, ⟨"source_actions", [.uint]⟩, ⟨"action", [.uint]⟩]
  | .wlDataSource =>
      [⟨"target", [.string true]⟩, ⟨"send", [.string false, .fd]⟩, ⟨"cancelled", []⟩,
        ⟨"dnd_drop_performed", []⟩, ⟨"dnd_finished", []⟩, ⟨"action", [.uint]⟩]
  | .wlDataDevice =>
      [⟨"data_offer", [.newId (some .wlDataOffer)]⟩,
        ⟨"enter", [.uint, .object (some .wlSurface) false, .fixed, .fixed,
          .object (some .wlDataOffer) true]⟩,
        ⟨"leave", []⟩, ⟨"motion", [.uint, .fixed, .fixed]⟩, ⟨"drop", []⟩,
        ⟨"selection", [.object (some .wlDataOffer) true]⟩]
  | .wlDataDeviceManager => []
  | .wlShell => []
  | .wlShellSurface =>
      [⟨"ping", [.uint]⟩, ⟨"configure", [.uint, .int, .int]⟩, ⟨"popup_done", []⟩]
  | .wlSurface =>
      [⟨"enter", [.object (some .wlOutput) false]⟩, ⟨"leave", [.object (some .wlOutput) false]⟩,
        ⟨"preferred_buffer_scale", [.int]⟩, ⟨"preferred_buffer_transform", [.uint]⟩]
  | .wlSeat =>
      [⟨"capabilities", [.uint]⟩, ⟨"name", [.string false]⟩]
  | .wlPointer =>
      [⟨"enter", [.uint, .object (some .wlSurface) false, .fixed, .fixed]⟩,
        ⟨"leave", [.uint, .object (some .wlSurface) false]⟩, ⟨"motion", [.uint, .fixed, .fixed]⟩,
        ⟨"button", [.uint, .uint, .uint, .uint]⟩, ⟨"axis", [.uint, .uint, .fixed]⟩, ⟨"frame", []⟩,
        ⟨"axis_source", [.uint]⟩, ⟨"axis_stop", [.uint, .uint]⟩, ⟨"axis_discrete", [.uint, .int]⟩,
        ⟨"axis_value120", [.uint, .int]⟩, ⟨"axis_relative_direction", [.uint, .uint]⟩]
  | .wlKeyboard =>
      [⟨"keymap", [.uint, .fd, .uint]⟩,
        ⟨"enter", [.uint, .object (some .wlSurface) false, .array]⟩,
        ⟨"leave", [.uint, .object (some .wlSurface) false]⟩,
        ⟨"key", [.uint, .uint, .uint, .uint]⟩, ⟨"modifiers", [.uint, .uint, .uint, .uint, .uint]⟩,
        ⟨"repeat_info", [.int, .int]⟩]
  | .wlTouch =>
      [⟨"down", [.uint, .uint, .object (some .wlSurface) false, .int, .fixed, .fixed]⟩,
        ⟨"up", [.uint, .uint, .int]⟩, ⟨"motion", [.uint, .int, .fixed, .fixed]⟩, ⟨"frame", []⟩,
        ⟨"cancel", []⟩, ⟨"shape", [.int, .fixed, .fixed]⟩, ⟨"orientation", [.int, .fixed]⟩]
  | .wlOutput =>
      [⟨"geometry", [.int, .int, .int, .int, .int, .string false, .string false, .int]⟩,
        ⟨"mode", [.uint, .int, .int, .int]⟩, ⟨"done", []⟩, ⟨"scale", [.int]⟩,
        ⟨"name", [.string false]⟩, ⟨"description", [.string false]⟩]
  | .wlRegion => []
  | .wlSubcompositor => []
  | .wlSubsurface => []
  | .wlFixes => []
  | .xdgWmBase =>
      [⟨"ping", [.uint]⟩]
  | .xdgPositioner => []
  | .xdgSurface =>
      [⟨"configure", [.uint]⟩]
  | .xdgToplevel =>
      [⟨"configure", [.int, .int, .array]⟩, ⟨"close", []⟩, ⟨"configure_bounds", [.int, .int]⟩,
        ⟨"wm_capabilities", [.array]⟩]
  | .xdgPopup =>
      [⟨"configure", [.int, .int, .int, .int]⟩, ⟨"popup_done", []⟩, ⟨"repositioned", [.uint]⟩]

end Interface

/-- `proxy_protocols`, each with its interfaces in the order of the file. -/
def proxyProtocols : List (List Interface) :=
  [[.zwpLinuxDmabufV1, .zwpLinuxBufferParamsV1, .zwpLinuxDmabufFeedbackV1],
    [.zwpPointerConstraintsV1, .zwpLockedPointerV1, .zwpConfinedPointerV1],
    [.wpPresentation, .wpPresentationFeedback],
    [.zwpRelativePointerManagerV1, .zwpRelativePointerV1],
    [.zwpTabletManagerV2, .zwpTabletSeatV2, .zwpTabletToolV2, .zwpTabletV2, .zwpTabletPadRingV2,
      .zwpTabletPadStripV2, .zwpTabletPadGroupV2, .zwpTabletPadV2, .zwpTabletPadDialV2],
    [.wpViewporter, .wpViewport],
    [.wlDisplay, .wlRegistry, .wlCallback, .wlCompositor, .wlShmPool, .wlShm, .wlBuffer,
      .wlDataOffer, .wlDataSource, .wlDataDevice, .wlDataDeviceManager, .wlShell, .wlShellSurface,
      .wlSurface, .wlSeat, .wlPointer, .wlKeyboard, .wlTouch, .wlOutput, .wlRegion,
      .wlSubcompositor, .wlSubsurface, .wlFixes],
    [.xdgWmBase, .xdgPositioner, .xdgSurface, .xdgToplevel, .xdgPopup]]

/-- `proxy_lookup_interface`. -/
def proxyLookupInterface (name : String) : Option Interface :=
  proxyProtocols.flatten.find? fun interface => interface.name = name

end Stratus.Capture.Proxy
