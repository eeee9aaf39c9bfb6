import FmSdrTuner.Framework.Machine
import FmSdrTuner.Framework.Batching
import FmSdrTuner.Framework.Cells
import FmSdrTuner.Framework.KeepNewest
import FmSdrTuner.Framework.Copies
import FmSdrTuner.XdrServer.Authentication
import FmSdrTuner.Rds.Worker
import FmSdrTuner.Dsp.FmDemod
import FmSdrTuner.Control.Reconnect
import FmSdrTuner.Control.FieldRanges
import FmSdrTuner.Control.StartStop
import FmSdrTuner.Control.FrequencyBand
import FmSdrTuner.Control.PiReset
import FmSdrTuner.Control.ScanRequests
import FmSdrTuner.Control.ScanRestore
import FmSdrTuner.Control.RequestedTune
import FmSdrTuner.XdrServer.PiWindow
import FmSdrTuner.XdrServer.Framing
import FmSdrTuner.XdrServer.ClientSockets
import FmSdrTuner.XdrServer.LineDelivery
import FmSdrTuner.XdrServer.Snapshot
import FmSdrTuner.Control.ScanRate
import FmSdrTuner.Scan.Abort
import FmSdrTuner.Iq.RtlTcpClient
import FmSdrTuner.Iq.RtlTcpCommands
import FmSdrTuner.Audio.SampleQueues
import FmSdrTuner.Iq.RtlSdrDevice
import FmSdrTuner.Text.Json
import FmSdrTuner.RestServer.Response
import FmSdrTuner.Control.RestPanel
import FmSdrTuner.Control.Station
import FmSdrTuner.Control.DeviceSettings
import FmSdrTuner.Control.GainStatus
import FmSdrTuner.Control.StateMirror
import FmSdrTuner.Control.StateSnapshot
import FmSdrTuner.Framework.Segments
import FmSdrTuner.RestServer.Connection
import FmSdrTuner.Dsp.IqStaging
import FmSdrTuner.Audio.WavFile
import FmSdrTuner.Config.LoadFile
import FmSdrTuner.Dsp.SignalMeter
import FmSdrTuner.Audio.RetuneMute
import FmSdrTuner.Scan.Coverage
import FmSdrTuner.XdrServer.Disconnect
import FmSdrTuner.RestServer.Integers
import FmSdrTuner.Audio.MpxRate
import FmSdrTuner.Dsp.DemodBandwidth
import FmSdrTuner.Framework.DeadBand
import FmSdrTuner.Control.AutoGain
import FmSdrTuner.Framework.PeakHold
import FmSdrTuner.Dsp.FadeMute
import FmSdrTuner.Control.AdaptiveBandwidth
import FmSdrTuner.Framework.OrderStatistics
import FmSdrTuner.Scan.Calibration
import FmSdrTuner.RestServer.FlatJson
import FmSdrTuner.RestServer.Forms
import FmSdrTuner.XdrServer.RecvLine
import FmSdrTuner.Framework.ArgumentScan
import FmSdrTuner.Config.AppOptions
import FmSdrTuner.Config.ConfigFile
import FmSdrTuner.Framework.SyndromeCode
import FmSdrTuner.Rds.BlockCode
import FmSdrTuner.Framework.RunningSum
import FmSdrTuner.Rds.BlockSync
import FmSdrTuner.Rds.GroupReception
import FmSdrTuner.Rds.SyncAcquisition
import FmSdrTuner.Rds.Biphase
import FmSdrTuner.Rds.Receiver
import FmSdrTuner.Framework.DelayLine
import FmSdrTuner.Framework.Smoothing
import FmSdrTuner.Dsp.MultipathEq
import FmSdrTuner.Dsp.Cmath
import FmSdrTuner.Dsp.StereoDecoder
import FmSdrTuner.Dsp.AfPostProcessor
import FmSdrTuner.Framework.Noninterference
import FmSdrTuner.Dsp.OutputStage
import FmSdrTuner.Dsp.RunningDemod
import FmSdrTuner.Dsp.AudioPipeline
import FmSdrTuner.Dsp.LevelMeter
