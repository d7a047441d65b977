import Eye.Rtsp.WholeUnits
import Eye.Rtsp.AnnexB
import Eye.Rtsp.Sessions
import Eye.Rtsp.NoLostWakeup
import Eye.Rtsp.DeferredDelivery
import Eye.Rtsp.Delivery
import Eye.Stream.DeliveryAccounts
import Eye.Stream.Shutdown
import Eye.Stream.Isolation
import Eye.Rtsp.ClientLimit
import Eye.Rtsp.Describe
import Eye.Platform.StreamFetcher
import Eye.Rtsp.Teardown
import Eye.Rtsp.PlaybackStart
import Eye.Rtsp.PresentationTime
import Eye.Stream.Removal
import Eye.Stream.RecorderShutdown
import Eye.Platform.BuffersReturned
import Eye.Rtsp.PackGrouping
import Eye.Rtsp.TriggerContract
import Eye.Rtsp.SplitWords
import Eye.Rtsp.ZeroPadding
import Eye.Platform.ChannelParam
import Eye.Platform.CvbrBitRate
import Eye.Stream.RecorderSize
import Eye.Platform.OwnedFrame
import Eye.Stream.TimestampSequence
import Eye.Rtsp.FaithfulDelivery
import Eye.Rtsp.ComesToRest
import Eye.Rtsp.NormalForm
import Eye.Stream.Recording
import Eye.Platform.VideoPipeline
import Eye.Platform.BringUp
import Eye.Lib.WorkerRest
import Eye.Stream.Drained
import Eye.App.Camera
import Eye.Rtsp.SharedStreams
import Eye.App.StoppedFetcher
import Eye.Rtsp.Conservation
import Eye.Core.LogDir
import Eye.Core.Logger
